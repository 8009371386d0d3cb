import BookFeed.Proofs.Tracker.Handover
import Mathlib.Algebra.BigOperators.Group.Finset.Piecewise

/-!
# Every message is accounted for once

What the counters say is what happened. `Audit.Balanced` compares what has gone into a tracker with
what it holds and what has come out, and its counters with what became of each message. Every event
keeps it (`Balanced.step`). Once nothing is under way, nothing is held any more, and what the
counters have gained adds up to the messages that were sent and saved (`Audit.Accounted`).

* `Processing.length_eq_counts`: what became of a message is counted at exactly one place;
* **`Audit.run_accounted`**: so is every message, after any interleaving since the start.
-/

namespace BookFeed

namespace Processing

/-- How many of the messages a counter has counted. -/
def count (exchange : String) (c : Counter) (ds : List Processing) : Nat :=
  ds.countP fun d => d.counter? exchange = some c

variable {exchange : String} {c : Counter} {d : Processing} {ds ds' : List Processing}
  {pairs : List String} {t t' : Tracker}

theorem count_append : count exchange c (ds ++ ds') = count exchange c ds + count exchange c ds' :=
  List.countP_append

theorem count_cons : count exchange c (d :: ds) =
    count exchange c ds + if d.counter? exchange = some c then 1 else 0 := by
  simp only [count, List.countP_cons, decide_eq_true_eq]

/-- Records count what is processed. -/
theorem get_enter (r : Records) : (r.enter t d).counters.get c =
    r.counters.get c + count r.exchange c [d] := by
  rw [count_cons, Records.enter]
  cases hc : d.counter? r.exchange with
  | none => simp [count]
  | some c' =>
    rw [Option.elim_some, Counters.get_increment]
    simp only [Option.some.injEq, eq_comm, count, List.countP_nil, Nat.zero_add]

/-- The tasks of pairs do not count messages as untracked. -/
theorem count_untracked : count exchange (.rejected exchange .untracked) ds = 0 := by
  refine List.countP_eq_zero.mpr fun d _ => ?_
  rw [decide_eq_true_eq, counter?]
  split <;> simp

/-- Only what is processed for a pair is counted for it. -/
theorem count_of_not_mem {p : String} (hp : ∀ d ∈ ds, d.pair ≠ p) :
    count exchange (.diffs exchange p) ds = 0 ∧ count exchange (.snapshots exchange p) ds = 0 := by
  refine ⟨List.countP_eq_zero.mpr fun d hd => ?_, List.countP_eq_zero.mpr fun d hd => ?_⟩
  · rw [decide_eq_true_eq, counter?]
    split <;> simp [hp d hd]
  · rw [decide_eq_true_eq, counter?]
    split <;> simp [hp d hd]

/-- Faults, and only they, are counted as such. -/
theorem count_faults :
    count exchange (.faults "order_book_tracker") ds = (ds.filter (!·.outcome.isOk)).length := by
  rw [count, ← List.countP_eq_length_filter]
  refine List.countP_congr fun d _ => ?_
  rw [decide_eq_true_eq, counter?]
  split <;> simp_all [Except.isOk, Except.toBool]

theorem isForwarded_iff : d.isForwarded = true ↔ d.outcome = .ok .trade := by
  rw [isForwarded, decide_eq_true_eq]
  cases d.outcome <;> simp [Except.toOption]

/-- **What became of a message is counted at exactly one place.** -/
theorem counted_once (exchange : String) (hd : d.pair ∈ pairs) :
    (∑ p ∈ pairs.toFinset, (count exchange (.diffs exchange p) [d] +
      count exchange (.snapshots exchange p) [d])) +
    count exchange (.rejected exchange .duplicate) [d] +
    count exchange (.rejected exchange .staleDiff) [d] +
    count exchange (.rejected exchange .staleSnapshot) [d] + [d].countP isForwarded +
    count exchange (.faults "order_book_tracker") [d] = 1 := by
  have hone (c : Counter) :
      count exchange c [d] = if d.counter? exchange = some c then 1 else 0 := by
    rw [count_cons]
    exact Nat.zero_add _
  have hmem : d.pair ∈ pairs.toFinset := List.mem_toFinset.mpr hd
  simp only [hone, List.countP_singleton, Finset.sum_add_distrib]
  obtain ⟨⟨m, outcome⟩, p⟩ := d
  cases outcome with
  | error e => simp [counter?, isForwarded, Except.toOption]
  | ok applied =>
    cases applied with
    | stale kind => cases kind <;> simp [counter?, isForwarded, Except.toOption]
    | diff | outOfOrder | rebuilt | snapshot =>
      have hsum : ∑ q ∈ pairs.toFinset, (if p = q then 1 else 0) = 1 := by
        rw [Finset.sum_ite_eq, if_pos hmem]
      simpa [counter?, isForwarded, Except.toOption] using hsum
    | trade | duplicate => simp [counter?, isForwarded, Except.toOption]

/-- **So what became of several messages adds up.** -/
theorem length_eq_counts (exchange : String) (hds : ∀ d ∈ ds, d.pair ∈ pairs) : ds.length =
    (∑ p ∈ pairs.toFinset, (count exchange (.diffs exchange p) ds +
      count exchange (.snapshots exchange p) ds)) +
    count exchange (.rejected exchange .duplicate) ds +
    count exchange (.rejected exchange .staleDiff) ds +
    count exchange (.rejected exchange .staleSnapshot) ds + ds.countP isForwarded +
    count exchange (.faults "order_book_tracker") ds := by
  induction ds with
  | nil => simp [count]
  | cons d ds ih =>
    obtain ⟨hd, hds⟩ := List.forall_mem_cons.mp hds
    have hcons : ∀ c, count exchange c ([d] ++ ds) = count exchange c [d] + count exchange c ds :=
      fun c => count_append
    have hforwarded : ([d] ++ ds).countP isForwarded =
        [d].countP isForwarded + ds.countP isForwarded := List.countP_append
    have hone := counted_once exchange hd
    have hsum := ih hds
    rw [← List.singleton_append]
    simp only [hcons, hforwarded, Finset.sum_add_distrib, List.length_append,
      List.length_singleton] at hone hsum ⊢
    omega

end Processing

namespace Tracker

variable {t₀ t t' : Tracker}

theorem faultText_congr (h : t.settings = t'.settings) : t.faultText = t'.faultText := by
  unfold faultText
  rw [h]

theorem advisory?_congr {d : Processing} (h : t.settings = t'.settings) :
    d.advisory? t = d.advisory? t' := by
  unfold Processing.advisory?
  rw [faultText_congr h]

namespace Audit

/-- What has gone into a tracker is in it or has come out, and its records say what came of it. -/
structure Balanced (t₀ : Tracker) (x : Audit) : Prop where
  order : x.system.Orderly t₀
  total : x.sent.length + x.system.saved + t₀.counters.get (.rejected t₀.exchange .untracked) =
    x.dropped.length + x.system.untracked + x.processed.length + x.system.inTransit
  untracked : t₀.counters.get (.rejected t₀.exchange .untracked) ≤ x.system.untracked
  counters : ∀ c, c ≠ .rejected t₀.exchange .untracked → x.tracker.counters.get c =
    t₀.counters.get c + Processing.count t₀.exchange c x.processed
  advisories : x.tracker.advisories.sent =
    t₀.advisories.sent ++ x.processed.filterMap (·.advisory? t₀)
  trades : x.tracker.trades.dropped = false →
    t₀.trades.queue ++ x.forwarded = x.read ++ x.tracker.trades.queue
  pairs : ∀ d ∈ x.processed, t₀.tracked.contains d.pair = true

variable {x : Audit} {s : System}

/-- Calls keep the balance. -/
theorem Balanced.passed {dropped : List Message} (hb : x.Balanced t₀) (ho : s.Orderly t₀)
    (hp : x.system.Passed s dropped) :
    ({ x with system := s, dropped := x.dropped ++ dropped } : Audit).Balanced t₀ where
  order := ho
  total := by
    have htotal := hb.total
    have hpassed := hp.total
    show x.sent.length + s.saved + _ =
      (x.dropped ++ dropped).length + s.untracked + x.processed.length + s.inTransit
    rw [List.length_append]
    omega
  untracked := hb.untracked.trans hp.untracked
  counters c hc := (hp.counters c (hb.order.steady.exchange ▸ hc)).trans (hb.counters c hc)
  advisories := hp.advisories.trans hb.advisories
  trades hopen := by
    show _ = x.read ++ s.tracker.trades.queue
    rw [hp.trades]
    exact hb.trades ((congrArg TradeStream.dropped hp.trades).symm.trans hopen)
  pairs := hb.pairs

/-- What is processed is processed for a pair that has a task. -/
theorem serving_of_processing? {e : Tracker.Event} {d : Processing}
    (hd : e.processing? t = some d) : t.pipeline.serving d.pair ≠ none := by
  cases e with
  | turn name =>
    cases name with
    | pair p =>
      obtain ⟨task, m, inbox, hp, -, -, rfl, -⟩ := processNext?_of_next? hd
      rw [serving_pipeline, hp]
      exact Option.some_ne_none _
    | listener | router => exact absurd hd (by simp [Event.processing?])
  | send | closeFeed | yield | pass | ring => exact absurd hd (by simp [Event.processing?])

theorem Balanced.quiet {e : Tracker.Event} (hb : x.Balanced t₀)
    (ho : ({ x.system with tracker := t } : System).Orderly t₀) (hn : Noted e x.tracker t)
    (hd : e.processing? x.tracker = none) : ({ x with
      system := { x.system with tracker := t }
      sent := x.sent ++ e.sent?.toList } : Audit).Balanced t₀ := by
  have hinside := hn.inside
  have hr : t.records = x.tracker.records := by rw [hn.records, hd]; rfl
  have ht : t.trades = x.tracker.trades := by rw [hn.trades, hd]; rfl
  have hc : t.counters = x.tracker.counters := congrArg Records.counters hr
  have hu : ({ x.system with tracker := t } : System).untracked = x.system.untracked := by
    show t.counters.get (.rejected t.exchange .untracked) = _
    rw [hc, show t.exchange = x.tracker.exchange from congrArg Records.exchange hr]
    rfl
  refine ⟨ho, ?_, hb.untracked.trans hu.ge, fun c hne => ?_, ?_, ?_, hb.pairs⟩
  · have htotal := hb.total
    show (x.sent ++ e.sent?.toList).length + x.system.saved + _ =
      x.dropped.length + ({ x.system with tracker := t } : System).untracked +
        x.processed.length + (t.pipeline.inside + x.system.underWay)
    rw [hd] at hinside
    rw [hu, List.length_append]
    unfold System.inTransit at htotal
    simp only [Option.toList_none, List.length_nil, tracker] at hinside
    omega
  · exact (congrArg (·.get c) hc).trans (hb.counters c hne)
  · exact (congrArg Records.advisories hr).trans hb.advisories
  · show t.trades.dropped = false → _ = x.read ++ t.trades.queue
    rw [ht]
    exact hb.trades

/-- Trades go to the stream until it is dropped. -/
theorem forwarded_after {d : Processing} {read : List Message}
    (hx : x.tracker.trades.dropped = false →
      t₀.trades.queue ++ x.forwarded = read ++ x.tracker.trades.queue)
    (hopen : (x.tracker.trades.after d.message d.outcome).dropped = false) :
    t₀.trades.queue ++ ({ x with processed := x.processed ++ [d] } : Audit).forwarded =
      read ++ (x.tracker.trades.after d.message d.outcome).queue := by
  rw [Pipeline.dropped_after] at hopen
  have hsame := hx hopen
  have hforwarded : ({ x with processed := x.processed ++ [d] } : Audit).forwarded =
      x.forwarded ++ if d.isForwarded then [d.message] else [] := by
    simp only [forwarded, List.filter_append, List.map_append, List.filter_singleton]
    cases d.isForwarded <;> rfl
  rw [hforwarded, ← List.append_assoc, hsame]
  by_cases htrade : d.outcome = .ok .trade
  · rw [htrade, Pipeline.queue_after_trade, hopen, if_pos (Processing.isForwarded_iff.mpr htrade)]
    simp
  · rw [Pipeline.after_of_ne htrade, if_neg (mt Processing.isForwarded_iff.mp htrade)]
    simp

/-- The task of a pair processes a message. -/
theorem Balanced.entered {e : Tracker.Event} {d : Processing} (hb : x.Balanced t₀)
    (ho : ({ x.system with tracker := t } : System).Orderly t₀) (hn : Noted e x.tracker t)
    (hd : e.processing? x.tracker = some d) : ({ x with
      system := { x.system with tracker := t }
      sent := x.sent ++ e.sent?.toList
      processed := x.processed ++ [d] } : Audit).Balanced t₀ := by
  have hinside := hn.inside
  have hr : t.records = x.tracker.records.enter x.tracker d := by rw [hn.records, hd]; rfl
  have ht : t.trades = x.tracker.trades.after d.message d.outcome := by rw [hn.trades, hd]; rfl
  have hx : x.tracker.exchange = t₀.exchange := hb.order.steady.exchange
  have hc : ∀ c, t.counters.get c =
      x.tracker.counters.get c + Processing.count t₀.exchange c [d] := fun c => by
    rw [← hx]
    exact (congrArg (·.counters.get c) hr).trans (Processing.get_enter x.tracker.records)
  have hu : ({ x.system with tracker := t } : System).untracked = x.system.untracked := by
    show t.counters.get (.rejected t.exchange .untracked) = _
    rw [show t.exchange = t₀.exchange from ho.steady.exchange, hc, Processing.count_untracked,
      System.untracked, show x.system.tracker.exchange = t₀.exchange from hx]
    rfl
  refine ⟨ho, ?_, hb.untracked.trans hu.ge, fun c hne => ?_, ?_, ?_, fun d' hd' => ?_⟩
  · have htotal := hb.total
    show (x.sent ++ e.sent?.toList).length + x.system.saved + _ =
      x.dropped.length + ({ x.system with tracker := t } : System).untracked +
        (x.processed ++ [d]).length + (t.pipeline.inside + x.system.underWay)
    rw [hd] at hinside
    rw [hu, List.length_append, List.length_append]
    unfold System.inTransit at htotal
    simp only [Option.toList_some, List.length_singleton, tracker] at hinside ⊢
    omega
  · refine (hc c).trans ?_
    show _ = _ + Processing.count t₀.exchange c (x.processed ++ [d])
    rw [hb.counters c hne, Processing.count_append, Nat.add_assoc]
  · have hadvisories : t.advisories.sent =
        x.tracker.advisories.sent ++ (d.advisory? x.tracker).toList :=
      congrArg Records.advisories hr
    have hset : x.tracker.settings = t₀.settings := hb.order.steady.settings
    show t.advisories.sent = _ ++ (x.processed ++ [d]).filterMap _
    rw [hadvisories, hb.advisories, List.filterMap_append, List.append_assoc,
      advisory?_congr hset]
    cases hd : d.advisory? t₀ <;> simp [hd]
  · show t.trades.dropped = false → _ = x.read ++ t.trades.queue
    rw [ht]
    exact forwarded_after hb.trades
  · rcases List.mem_append.mp hd' with hd' | hd'
    · exact hb.pairs d' hd'
    · obtain rfl := List.mem_singleton.mp hd'
      exact hb.order.steady.tracked ▸ hb.order.tracked (serving_of_processing? hd)

/-- What happens apart from calls keeps the balance. -/
theorem Balanced.noted {e : Tracker.Event} (hb : x.Balanced t₀) (he : e.isRouting = false)
    (h : x.tracker.happen? e = some t) :
    ({ x with
      system := { x.system with tracker := t }
      sent := x.sent ++ e.sent?.toList
      processed := x.processed ++ (e.processing? x.tracker).toList } : Audit).Balanced t₀ := by
  have hserved : ∀ p, x.tracker.pipeline.serving p ≠ none →
      x.tracker.pipeline.tracked.contains p = true := fun p => hb.order.tracked
  have hn := noted_happen? hb.order.steady.fed hserved he h
  have ho : ({ x.system with tracker := t } : System).Orderly t₀ := by
    have hshelf := shelf_happen? hb.order.inv.strict_tasks he h
    refine hb.order.quiet (hb.order.inv.quiet hshelf) ?_ (congrArg Shelf.tasks hshelf)
    exact steady_happen? hb.order.steady hserved he h
  cases hd : e.processing? x.tracker with
  | none =>
    have hquiet := hb.quiet ho hn hd
    rw [Option.toList_none, List.append_nil]
    exact hquiet
  | some d => exact hb.entered ho hn hd

/-- Who reads trades does not see to anything else. -/
theorem Balanced.setTrades {trades : TradeStream} {read : List Message} (hb : x.Balanced t₀)
    (hopen : trades.dropped = false →
      t₀.trades.queue ++ x.forwarded = read ++ trades.queue) :
    ({ x.setTrades trades with read } : Audit).Balanced t₀ where
  order := hb.order.quiet (hb.order.inv.quiet rfl) (hb.order.steady.of_frame rfl ⟨_, _, _, rfl⟩) rfl
  total := hb.total
  untracked := hb.untracked
  counters := hb.counters
  advisories := hb.advisories
  trades := hopen
  pairs := hb.pairs

/-- A call that has only begun has not touched any message yet. -/
theorem Balanced.save (hb : x.Balanced t₀) (m : Message) :
    ({ x with system := x.system.step (.save m) } : Audit).Balanced t₀ := by
  have ho : (x.system.step (.save m)).Orderly t₀ := by
    refine hb.order.of_calls (hb.order.inv.step (.save m)) hb.order.steady (fun _ _ hb => hb)
      (fun c hc => ?_) hb.order.holder
    refine (List.mem_append.mp hc).imp_right fun hc => ?_
    obtain rfl := List.mem_singleton.mp hc
    trivial
  have hpassed : x.system.Passed (x.system.step (.save m)) [] := by
    refine .quiet rfl rfl rfl ?_
    show x.tracker.pipeline.inside + (x.system.calls.countP (·.isRouted) + _) =
      x.tracker.pipeline.inside + ((x.system.calls ++ [Call.find m .saver]).countP _ + _) + 0
    rw [List.countP_append]
    rfl
  have hsaved := hb.passed ho hpassed
  rwa [List.append_nil] at hsaved

/-- **Every event keeps the balance.** -/
theorem Balanced.step (hb : x.Balanced t₀) (e : Event) : (x.step e).Balanced t₀ := by
  cases e with
  | other e =>
    simp only [Audit.step]
    split
    · have htaken := hb.passed hb.order.takeUp (.takeUp x.system)
      rwa [List.append_nil] at htaken
    · rename_i he
      rw [Bool.not_eq_true] at he
      split
      · exact hb
      · rename_i t ht
        rw [System.step_other he ht]
        exact hb.noted he ht
  | save m => exact hb.save m
  | go i =>
    simp only [Audit.step, System.step, System.drops]
    cases hc : x.system.calls[i]? with
    | none => exact (List.append_nil x.dropped).symm ▸ hb
    | some c =>
      have hpassed := hb.order.passed hc
      rw [System.drops, hc] at hpassed
      exact hb.passed (hb.order.resume hc) hpassed
  | hold =>
    simp only [Audit.step, System.step]
    cases hh : x.system.holder with
    | none => exact hb
    | some h =>
      have hheld := hb.passed (hb.order.resumeHolder hh) (hb.order.passed_holder hh)
      rwa [List.append_nil] at hheld
  | takeTrades => exact hb.setTrades hb.trades
  | readTrades =>
    refine hb.setTrades fun hopen => ?_
    unfold TradeStream.read at hopen ⊢
    split
    · rename_i htaken
      rw [if_pos htaken] at hopen
      exact (hb.trades hopen).trans (List.append_nil _).symm
    · rename_i htaken
      rw [if_neg htaken] at hopen
      rw [List.append_nil]
      exact hb.trades hopen
  | dropTrades =>
    refine hb.setTrades fun hopen => ?_
    unfold TradeStream.drop at hopen ⊢
    split
    · rename_i htaken
      rw [if_pos htaken] at hopen
      exact absurd hopen (by simp)
    · rename_i htaken
      rw [if_neg htaken] at hopen
      exact hb.trades hopen

theorem balanced_start {f : Feed} (hfeed : t₀.source = .feed f) : (start t₀).Balanced t₀ := by
  have hp := pipeline_start hfeed
  have hinside : t₀.start.pipeline.inside = f.queue.length := by
    rw [hp]
    show f.queue.length + 0 + ∑ p ∈ t₀.tracked.pairs.toFinset, 0 = f.queue.length
    rw [Finset.sum_const_zero]
    rfl
  have hfed : t₀.start.pipeline.Fed := by
    rw [hp]
    exact ⟨⟨f, rfl, fun hl => absurd hl (by simp)⟩, fun hnone => absurd hnone (by simp)⟩
  refine ⟨⟨System.inv_start t₀, ⟨rfl, rfl, rfl, hfed⟩, by simp [start], by simp [start]⟩, ?_,
    le_refl _, fun c _ => rfl, (List.append_nil _).symm, fun _ => List.append_nil _,
    by simp [start]⟩
  have hsent : (start t₀).sent = f.queue := by
    unfold start
    rw [hfeed]
  have htransit : (start t₀).system.inTransit = f.queue.length + 0 :=
    congrArg (· + 0) hinside
  have hcounted : (start t₀).system.untracked =
      t₀.counters.get (.rejected t₀.exchange .untracked) := rfl
  rw [hsent, htransit, hcounted]
  show f.queue.length + 0 + _ = 0 + _ + 0 + (f.queue.length + 0)
  omega

theorem balanced_run {f : Feed} (hfeed : t₀.source = .feed f) (es : List Event) :
    ((start t₀).run es).Balanced t₀ := by
  induction es using List.reverseRecOn with
  | nil => exact balanced_start hfeed
  | append_singleton es e ih =>
    rw [run_concat]
    exact ih.step e

/-! ## When nothing is under way -/

/-- **Where nothing is under way, no message is left in the tracker.** -/
theorem Idle.inTransit_eq_zero (h : x.Idle) (ho : x.system.Orderly t₀) :
    x.system.inTransit = 0 := by
  obtain ⟨f, hs, hends⟩ := ho.steady.fed.feed
  have hwaiting : x.tracker.pipeline.waiting = [] :=
    h.tasks.waiting_eq_nil hs fun hl => (hends hl).1
  have hrouting : x.tracker.pipeline.routing = [] := h.tasks.routing_eq_nil
  have hheld : x.tracker.pipeline.held = 0 := by
    refine Finset.sum_eq_zero fun p _ => ?_
    rw [serving_pipeline]
    cases hp : x.tracker.pair? p with
    | none => rfl
    | some task =>
      obtain ⟨hsaved, hlive⟩ := Inbox.take?_eq_none_iff.mp (h.tasks.take?_eq_none hp)
      show task.inbox.saved.length + task.inbox.live.length = 0
      rw [hsaved, hlive]
      rfl
  show x.tracker.pipeline.waiting.length + x.tracker.pipeline.routing.length +
    x.tracker.pipeline.held + (x.system.calls.countP _ + (x.system.holder.any _).toNat) = 0
  rw [hwaiting, hrouting, hheld, h.calls, h.free]
  rfl

/-- How much a counter has gained since the start of `t₀`. -/
def gained (t₀ : Tracker) (x : Audit) (c : Counter) : Nat :=
  x.tracker.counters.get c - t₀.counters.get c

/-- Every message that was sent or saved since the start of `t₀` is accounted for once. -/
structure Accounted (t₀ : Tracker) (x : Audit) : Prop where
  /-- messages that went in, and what the counters say became of them -/
  total : x.sent.length + x.system.saved = x.dropped.length +
    (x.gained t₀ (.rejected t₀.exchange .untracked) +
      (∑ p ∈ t₀.tracked.pairs.toFinset,
        (x.gained t₀ (.diffs t₀.exchange p) + x.gained t₀ (.snapshots t₀.exchange p))) +
      x.gained t₀ (.rejected t₀.exchange .duplicate) +
      x.gained t₀ (.rejected t₀.exchange .staleDiff) +
      x.gained t₀ (.rejected t₀.exchange .staleSnapshot) +
      x.forwarded.length +
      x.gained t₀ (.faults "order_book_tracker"))
  /-- no counter ever goes down -/
  grown : ∀ c, t₀.counters.get c ≤ x.tracker.counters.get c
  /-- nothing is counted for pairs that are not tracked -/
  others : ∀ p, t₀.tracked.contains p = false →
    x.gained t₀ (.diffs t₀.exchange p) = 0 ∧ x.gained t₀ (.snapshots t₀.exchange p) = 0
  /-- one fault for each failed process call -/
  faults : x.gained t₀ (.faults "order_book_tracker") = x.faults.length
  /-- and one advisory for each -/
  advisories : x.tracker.advisories.sent =
    t₀.advisories.sent ++ x.faults.filterMap (·.advisory? t₀)
  announced : (x.faults.filterMap (·.advisory? t₀)).length = x.faults.length ∧
    ∀ a ∈ x.faults.filterMap (·.advisory? t₀), a.component = "order_book_tracker"
  /-- trades are forwarded to the stream, as long as there is one -/
  trades : x.tracker.trades.dropped = false →
    t₀.trades.queue ++ x.forwarded = x.read ++ x.tracker.trades.queue

theorem Balanced.gained_eq (hb : x.Balanced t₀) {c : Counter}
    (hc : c ≠ .rejected t₀.exchange .untracked) :
    x.gained t₀ c = Processing.count t₀.exchange c x.processed := by
  rw [gained, hb.counters c hc, Nat.add_sub_cancel_left]

/-- Only faults are announced. -/
theorem filterMap_advisory_faults (t₀ : Tracker) (x : Audit) :
    x.processed.filterMap (·.advisory? t₀) = x.faults.filterMap (·.advisory? t₀) := by
  rw [faults, List.filterMap_filter]
  refine List.filterMap_congr fun d _ => ?_
  rw [Processing.advisory?]
  cases d.outcome <;> rfl

/-- Each fault is announced once. -/
theorem announced_faults (t₀ : Tracker) (x : Audit) :
    (x.faults.filterMap (·.advisory? t₀)).length = x.faults.length ∧
      ∀ a ∈ x.faults.filterMap (·.advisory? t₀), a.component = "order_book_tracker" := by
  refine ⟨?_, fun a ha => ?_⟩
  · rw [List.length_filterMap_eq_countP]
    refine List.countP_eq_length.mpr fun d hd => ?_
    have herror := (List.mem_filter.mp hd).2
    rw [Processing.advisory?]
    cases hd : d.outcome with
    | ok applied => simp [hd, Except.isOk, Except.toBool] at herror
    | error e => rfl
  · obtain ⟨d, -, hd⟩ := List.mem_filterMap.mp ha
    rw [Processing.advisory?] at hd
    split at hd
    · exact absurd hd (by simp)
    · rw [← Option.some.inj hd]

theorem Balanced.accounted (hb : x.Balanced t₀) (hidle : x.Idle) : x.Accounted t₀ := by
  have htransit := hidle.inTransit_eq_zero hb.order
  have hpairs : ∀ d ∈ x.processed, d.pair ∈ t₀.tracked.pairs := fun d hd =>
    List.contains_iff_mem.mp (hb.pairs d hd)
  have hforwarded : x.processed.countP Processing.isForwarded = x.forwarded.length := by
    rw [forwarded, List.length_map, List.countP_eq_length_filter]
  have hgained : ∀ c, c ≠ .rejected t₀.exchange .untracked →
      x.gained t₀ c = Processing.count t₀.exchange c x.processed := fun c => hb.gained_eq
  refine ⟨?_, fun c => ?_, fun p hp => ?_, ?_, ?_, ?_, hb.trades⟩
  · have htotal := hb.total
    have huntracked := hb.untracked
    have hcounted := Processing.length_eq_counts t₀.exchange hpairs
    have hgain : x.gained t₀ (.rejected t₀.exchange .untracked) = x.system.untracked -
        t₀.counters.get (.rejected t₀.exchange .untracked) := by
      rw [System.untracked, hb.order.steady.exchange]
      rfl
    have hsum : ∑ p ∈ t₀.tracked.pairs.toFinset,
        (x.gained t₀ (.diffs t₀.exchange p) + x.gained t₀ (.snapshots t₀.exchange p)) =
          ∑ p ∈ t₀.tracked.pairs.toFinset,
            (Processing.count t₀.exchange (.diffs t₀.exchange p) x.processed +
              Processing.count t₀.exchange (.snapshots t₀.exchange p) x.processed) :=
      Finset.sum_congr rfl fun p _ => by rw [hgained _ (by simp), hgained _ (by simp)]
    rw [hsum, hgain, hgained (.rejected _ .duplicate) (by simp),
      hgained (.rejected _ .staleDiff) (by simp), hgained (.rejected _ .staleSnapshot) (by simp),
      hgained (.faults _) (by simp)]
    omega
  · by_cases hc : c = .rejected t₀.exchange .untracked
    · have huntracked := hb.untracked
      rw [System.untracked, hb.order.steady.exchange, ← hc] at huntracked
      exact huntracked
    · rw [hb.counters c hc]
      exact Nat.le_add_right ..
  · have hothers : ∀ d ∈ x.processed, d.pair ≠ p := fun d hd heq => by
      rw [← heq, hb.pairs d hd] at hp
      exact absurd hp (by simp)
    rw [hgained _ (by simp), hgained _ (by simp)]
    exact Processing.count_of_not_mem hothers
  · rw [hgained _ (by simp), Processing.count_faults]
    rfl
  · rw [hb.advisories, filterMap_advisory_faults]
  · exact announced_faults t₀ x

/-- **Every message is accounted for once.** Whatever is sent to the feed of a started tracker and
saved for its pairs, and however its tasks and the calls that save messages take turns: once all
calls have returned and all tasks are idle, what went in, less what was dropped from full backlogs,
is what the counters have gained and what was forwarded as trades. Each process call that failed is
counted as one fault and announced once. -/
theorem run_accounted (t₀ : Tracker) (f : Feed) (es : List Event) (hfeed : t₀.source = .feed f)
    (hidle : ((start t₀).run es).Idle) : ((start t₀).run es).Accounted t₀ :=
  (balanced_run hfeed es).accounted hidle

open Synchronizer (sampleOpening sampleOrders sampleTrade) in
/-- The router and a call find no task for a pair at the same time. The message that the call saves
is dropped for a second one, and a third one is a fault. Other messages are of a pair that is not
tracked, or were processed before. -/
theorem run_accounted_dropped :
    let t₀ : Tracker :=
      { exchange := "sample", settings := { backlog := 1 }
        source := .feed { queue := [sampleTrade 9 5 (.ofNat 100) (.ofNat 1)] }
        tracked := .ofList ["BTC-USDT", "ETH-USDT"] }
    let btc : TaskName := .pair "BTC-USDT"
    let opening := sampleOpening 10 1 "A" (.ofNat 100) (.ofNat 1)
    let overflowing : Decimal := .ofNat 79228162514264337593543950335
    let arrivals : List Event :=
      [.other (.turn .listener), .other (.turn .router),
        .save (sampleOrders 9 7 "Z" (.ofNat 90) (.ofNat 1)), .go 0, .go 0, .go 0, .go 0, .go 0,
        .hold, .hold, .hold, .go 0, .hold, .hold, .hold,
        .save opening, .go 0, .go 1, .go 1, .go 0, .other (.turn btc),
        .save (sampleOpening 12 2 "C" (.ofNat 100) overflowing), .go 0, .go 0, .other (.turn btc)]
    let rest : List Event :=
      [.save { opening with pair := "XRP-USDT" }, .go 0, .go 0, .hold, .other (.send opening),
        .other (.send { opening with pair := "XRP-USDT" }), .other .closeFeed,
        .other (.turn .listener), .other (.turn .listener), .other (.turn .listener),
        .other (.turn .router), .go 0, .go 0, .go 0, .other (.turn .router), .go 0,
        .other (.turn .router), .other (.pass (Nanos.ofSeconds 6)), .other .ring,
        .other (.turn btc), .other (.turn btc), .takeTrades, .readTrades, .other (.turn btc)]
    let x := (start t₀).run (arrivals ++ rest)
    t₀.source = .feed { queue := [sampleTrade 9 5 (.ofNat 100) (.ofNat 1)] } ∧ x.Idle ∧
      x.sent.length = 3 ∧ x.system.saved = 3 ∧ x.dropped.length = 1 ∧ x.faults.length = 1 ∧
      x.forwarded.length = 1 ∧ x.gained t₀ (.diffs "sample" "BTC-USDT") = 1 ∧
      x.gained t₀ (.rejected "sample" .duplicate) = 1 ∧
      x.gained t₀ (.rejected "sample" .untracked) = 1 ∧ x.Accounted t₀ := by
  intro t₀ btc opening overflowing arrivals rest x
  have hidle : x.Idle := by decide +kernel
  refine ⟨rfl, hidle, by decide +kernel, by decide +kernel, by decide +kernel, by decide +kernel,
    by decide +kernel, by decide +kernel, by decide +kernel, by decide +kernel, ?_⟩
  exact run_accounted t₀ _ (arrivals ++ rest) rfl hidle

end Audit

end Tracker

end BookFeed
