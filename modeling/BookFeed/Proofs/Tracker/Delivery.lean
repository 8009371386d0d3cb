import BookFeed.Proofs.Registry
import BookFeed.Proofs.Synchronizer.Base
import BookFeed.Proofs.Tracker.Interleaving
import BookFeed.Proofs.Tracker.Pipeline

/-!
# No message is lost on its way

`Custody` says where the messages of a pair are: those that were sent are those that its task has
processed, then those in its inbox, then those at the router, then those in the feed. The
synchronizer and the registered book of the pair are what the processed messages make of new ones.
`Kept` says so of every pair.

* `Moved.kept`: whatever a task does, `Kept` remains. What is done for one pair is not seen by the
  others (`Custody.frame`).
* **`perform?_kept`**: so it holds after every interleaving since the start.
-/

namespace BookFeed

/-- The messages of a pair. -/
def Message.forPair (p : String) (ms : List Message) : List Message := ms.filter (·.pair = p)

/-- The trades among messages. -/
def Message.trades (ms : List Message) : List Message := ms.filter (·.kind = .trade)

namespace Message

variable {p : String} {m : Message} {ms ms' : List Message}

theorem forPair_append : forPair p (ms ++ ms') = forPair p ms ++ forPair p ms' :=
  List.filter_append ms ms'

theorem forPair_cons_self : forPair m.pair (m :: ms) = m :: forPair m.pair ms :=
  List.filter_cons_of_pos (by simp)

theorem forPair_cons_of_ne (h : p ≠ m.pair) : forPair p (m :: ms) = forPair p ms :=
  List.filter_cons_of_neg (by simpa using h.symm)

theorem mem_forPair : m ∈ forPair p ms ↔ m ∈ ms ∧ m.pair = p := by
  rw [forPair, List.mem_filter, decide_eq_true_eq]

end Message

namespace Pipeline

open Message (forPair forPair_append forPair_cons_self forPair_cons_of_ne)
open Tracker (Source)
open Synchronizer (initial run_concat pair_run bookPair_run outcome_eq_trade_iff)

/-- The messages in the feed. -/
def waiting (c : Pipeline) : List Message :=
  match c.source with
  | .feed f => f.queue
  | .polled _ _ => []

/-- The messages at the router. -/
def routing (c : Pipeline) : List Message := c.queue.getD []

/-- The messages that the task of a pair has received and not processed. -/
def received (c : Pipeline) (p : String) : List Message :=
  (c.serving p).elim [] (·.inbox.live)

/-- `done` are the messages that the task of `p` has processed. -/
inductive Served (window : Nat) (c : Pipeline) (p : String) : List Message → Prop where
  | absent (hk : c.serving p = none) (hv : c.registry.view? p = none) : Served window c p []
  | present {done : List Message} {k : Serving} (hk : c.serving p = some k)
      (hsaved : k.inbox.saved = []) (hs : k.synchronizer = (initial p p window).run done)
      (hv : c.registry.view? p = some k.handle)
      (hb : c.registry.book? p = some k.synchronizer.book) (hne : done ++ k.inbox.live ≠ []) :
      Served window c p done

/-- Where the messages of `p` are that were sent since `t₀` was started. Those of a pair that is not
tracked go nowhere. -/
structure Custody (t₀ : Tracker) (sent : List Message) (c : Pipeline) (p : String)
    (done : List Message) : Prop where
  served : c.Served t₀.settings.window p done
  tracked : c.serving p ≠ none → t₀.tracked.contains p = true
  sent : t₀.tracked.contains p = true →
    forPair p sent = done ++ c.received p ++ forPair p (c.routing ++ c.waiting)
  trades : forPair p c.trades.queue = forPair p t₀.trades.queue ++
    if t₀.trades.dropped then [] else Message.trades done

/-- What every event keeps. -/
structure Kept (t₀ : Tracker) (sent : List Message) (c : Pipeline) : Prop where
  settings : c.settings = t₀.settings
  tracked : c.tracked = t₀.tracked
  dropped : c.trades.dropped = t₀.trades.dropped
  feed : ∃ f, c.source = .feed f ∧ (c.listening = false → f.queue = [] ∧ f.closed = true)
  router : c.queue = none → c.listening = false
  books : c.registry.Sound
  pairs : ∀ p, ∃ done, c.Custody t₀ sent p done

variable {t₀ : Tracker} {c c' : Pipeline} {p q : String} {k : Serving} {m : Message}
  {sent done : List Message}

/-! ## Frame -/

theorem serving_serve_self : (c.serve p k).serving p = some k := Function.update_self ..

theorem serving_serve_of_ne (h : q ≠ p) : (c.serve p k).serving q = c.serving q :=
  Function.update_of_ne h ..

theorem received_eq (hk : c.serving p = some k) : c.received p = k.inbox.live := by
  rw [received, hk]
  rfl

/-- **What does not touch a pair changes nothing for it.** -/
theorem Custody.frame (h : c.Custody t₀ sent p done) (hk : c'.serving p = c.serving p)
    (hv : c'.registry.view? p = c.registry.view? p)
    (hb : c'.registry.book? p = c.registry.book? p)
    (ht : forPair p c'.trades.queue = forPair p c.trades.queue)
    (hw : t₀.tracked.contains p = true →
      forPair p (c'.routing ++ c'.waiting) = forPair p (c.routing ++ c.waiting)) :
    c'.Custody t₀ sent p done where
  served := by
    cases h.served with
    | absent hk₀ hv₀ => exact .absent (hk.trans hk₀) (hv.trans hv₀)
    | present hk₀ hsaved hs hv₀ hb₀ hne =>
      exact .present (hk.trans hk₀) hsaved hs (hv.trans hv₀) (hb.trans hb₀) hne
  tracked := by
    rw [hk]
    exact h.tracked
  sent hp := by
    rw [received, hk, hw hp]
    exact h.sent hp
  trades := ht.trans h.trades

/-! ## The trades -/

theorem queue_after_trade {s : TradeStream} :
    (s.after m (.ok .trade)).queue = s.queue ++ if s.dropped then [] else [m] := by
  rw [TradeStream.after, TradeStream.send]
  split
  · exact (List.append_nil _).symm
  · rfl

theorem after_of_ne {s : TradeStream} {outcome : Except Error Applied} (h : outcome ≠ .ok .trade) :
    s.after m outcome = s := by
  unfold TradeStream.after
  split
  · exact absurd rfl h
  · rfl

/-- Other pairs do not see a message in the stream. -/
theorem forPair_after_of_ne {s : TradeStream} {outcome : Except Error Applied}
    (h : q ≠ m.pair) : forPair q (s.after m outcome).queue = forPair q s.queue := by
  unfold TradeStream.after TradeStream.send
  split
  · split
    · rfl
    · rw [forPair_append, forPair_cons_of_ne h]
      exact List.append_nil _
  · rfl

theorem dropped_after {s : TradeStream} {outcome : Except Error Applied} :
    (s.after m outcome).dropped = s.dropped := by
  unfold TradeStream.after TradeStream.send
  split
  · split <;> rfl
  · rfl

/-! ## Every step -/

/-- The router hands a message to the task of its pair. -/
theorem Custody.delivered {queue : List Message} (h : c.Custody t₀ sent m.pair done)
    (hq : c.queue = some (m :: queue)) (hk : c.serving m.pair = some k) :
    ({ c with queue := some queue }.serve m.pair
      { k with inbox := k.inbox.deliver m } : Pipeline).Custody t₀ sent m.pair done where
  served := by
    cases h.served with
    | absent hk₀ => exact absurd (hk.symm.trans hk₀) (by simp)
    | present hk₀ hsaved hs hv hb hne =>
      obtain rfl := Option.some.inj (hk.symm.trans hk₀)
      exact .present serving_serve_self hsaved hs hv hb (by simp [Inbox.deliver])
  tracked _ := h.tracked (by simp [hk])
  sent hp := by
    have hsent := h.sent hp
    rw [received_eq hk, routing, hq, Option.getD_some, List.cons_append, forPair_cons_self]
      at hsent
    rw [received_eq serving_serve_self, hsent]
    simp [Inbox.deliver, routing, waiting, serve]
  trades := h.trades

/-- The router makes the task of a pair with its first message. -/
theorem Custody.opened {queue : List Message} {registry : Registry} {handle : Handle}
    (h : c.Custody t₀ sent m.pair done) (hset : c.settings = t₀.settings)
    (hq : c.queue = some (m :: queue)) (ht : t₀.tracked.contains m.pair = true)
    (hk : c.serving m.pair = none) (hr : c.registry.register m.pair = (registry, handle)) :
    ({ c with queue := some queue, registry }.serve m.pair
      { handle
        synchronizer :=
          .new m.pair c.settings.window ((registry.read? handle).getD (.empty m.pair))
        inbox := ⟨[], [m]⟩ } : Pipeline).Custody t₀ sent m.pair done := by
  cases h.served with
  | present hk₀ => exact absurd (hk.symm.trans hk₀) (by simp)
  | absent _ hv =>
    have hview := Registry.view?_register_self hv
    have hread := Registry.read?_register hv
    have hbook := Registry.book?_register_self hv
    rw [hr] at hview hread hbook
    have hnew : Synchronizer.new m.pair c.settings.window
        ((registry.read? handle).getD (.empty m.pair)) =
          initial m.pair m.pair t₀.settings.window := by
      rw [hread, hset]
      rfl
    refine ⟨.present serving_serve_self rfl hnew hview ?_ (by simp), fun _ => ht, fun hp => ?_,
      h.trades⟩
    · rw [hnew]
      exact hbook
    · have hsent := h.sent hp
      rw [received, hk, routing, hq, Option.getD_some, List.cons_append, forPair_cons_self]
        at hsent
      rw [received_eq serving_serve_self, hsent]
      rfl

/-- Where nothing is saved, what comes next is the oldest live message. -/
theorem live_of_take? {b inbox : Inbox} (hsaved : b.saved = [])
    (hm : b.take? = some (m, inbox)) : ∃ rest, b.live = m :: rest ∧ inbox = ⟨[], rest⟩ := by
  obtain ⟨saved, live⟩ := b
  obtain rfl : saved = [] := hsaved
  cases live with
  | nil => exact absurd hm (by simp [Inbox.take?])
  | cons m' rest =>
    obtain ⟨rfl, rfl⟩ := Prod.mk.inj (Option.some.inj hm)
    exact ⟨rest, rfl, rfl⟩

theorem live_of_take?_eq_none {b : Inbox} (hm : b.take? = none) : b.live = [] := by
  unfold Inbox.take? at hm
  split at hm
  · exact absurd hm (by simp)
  · exact absurd hm (by simp)
  · assumption

/-- The task of a pair processes a message. -/
theorem Custody.processed {inbox : Inbox} {s : Synchronizer} {outcome : Except Error Applied}
    (h : c.Custody t₀ sent p done) (hdropped : c.trades.dropped = t₀.trades.dropped)
    (hk : c.serving p = some k) (hm : k.inbox.take? = some (m, inbox))
    (hp : k.synchronizer.process m = (s, outcome)) :
    m.pair = p ∧ ({ c with
      registry := c.registry.write k.handle fun _ => s.book
      trades := c.trades.after m outcome }.serve p
        { k with synchronizer := s, inbox, recovering := !outcome.isOk } : Pipeline).Custody
          t₀ sent p (done ++ [m]) := by
  cases h.served with
  | absent hk₀ => exact absurd (hk.symm.trans hk₀) (by simp)
  | present hk₀ hsaved hs hv hb hne =>
    obtain rfl := Option.some.inj (hk.symm.trans hk₀)
    obtain ⟨rest, hlive, rfl⟩ := live_of_take? hsaved hm
    have ht : t₀.tracked.contains p = true := h.tracked (by simp [hk])
    have hsent := h.sent ht
    rw [received_eq hk, hlive] at hsent
    -- what is in the inbox was sent for this pair, so the synchronizer accepts it as its own
    have hpair : m.pair = p := by
      have hmem : m ∈ forPair p sent := by
        rw [hsent]
        simp
      exact (Message.mem_forPair.mp hmem).2
    subst hpair
    have hrouted : k.synchronizer.Routed m := by
      rw [hs]
      exact ⟨pair_run.symm, bookPair_run.trans pair_run.symm⟩
    have hout : outcome = .ok .trade ↔ m.kind = .trade := by
      rw [← outcome_eq_trade_iff hrouted, hp]
    refine ⟨rfl, .present serving_serve_self rfl ?_ hv ?_ (by simp), fun _ => ht, fun _ => ?_, ?_⟩
    · rw [run_concat, ← hs, hp]
    · exact (Registry.book?_write_self hv).trans (by rw [hb]; rfl)
    · rw [hsent, received_eq serving_serve_self]
      simp [routing, waiting, serve]
    · show forPair m.pair (c.trades.after m outcome).queue = _
      by_cases hkind : m.kind = .trade
      · rw [hout.mpr hkind, queue_after_trade, hdropped, forPair_append, h.trades]
        cases t₀.trades.dropped <;> simp [Message.trades, forPair, hkind]
      · rw [after_of_ne (mt hout.mp hkind), h.trades]
        simp [Message.trades, hkind]

/-- The task of a pair goes on after a pause. -/
theorem Custody.recovered (h : c.Custody t₀ sent p done) (hk : c.serving p = some k) :
    (c.serve p { k with recovering := false }).Custody t₀ sent p done where
  served := by
    cases h.served with
    | absent hk₀ => exact absurd (hk.symm.trans hk₀) (by simp)
    | present hk₀ hsaved hs hv hb hne =>
      obtain rfl := Option.some.inj (hk.symm.trans hk₀)
      exact .present serving_serve_self hsaved hs hv hb hne
  tracked _ := h.tracked (by simp [hk])
  sent hp := by
    have hsent := h.sent hp
    rw [received_eq hk] at hsent
    rw [received_eq serving_serve_self]
    exact hsent
  trades := h.trades

/-- What is done for one pair leaves the messages of all in custody, if it does so for this pair and
the others do not see it. -/
theorem custody_of_pair (h : ∀ q, ∃ done, c.Custody t₀ sent q done)
    (hown : ∃ done, c'.Custody t₀ sent p done)
    (hothers : ∀ q done, q ≠ p → c.Custody t₀ sent q done → c'.Custody t₀ sent q done) :
    ∀ q, ∃ done, c'.Custody t₀ sent q done := fun q => by
  by_cases hq : q = p
  · exact hq ▸ hown
  · obtain ⟨done, hd⟩ := h q
    exact ⟨done, hothers q done hq hd⟩

/-- The listener takes a message from the feed, and the router gets it. -/
theorem Kept.forwarded {f : Feed} {queue : List Message} (hc : c.Kept t₀ sent)
    (hs : c.source = .feed f) (hl : c.listening = true) (hq : f.queue = m :: queue) :
    ({ c with source := .feed { f with queue }, queue := c.queue.map (· ++ [m]) } :
      Pipeline).Kept t₀ sent where
  settings := hc.settings
  tracked := hc.tracked
  dropped := hc.dropped
  feed := ⟨_, rfl, fun hl' => absurd (hl.symm.trans hl') (by decide)⟩
  router hnone := hc.router (Option.map_eq_none_iff.mp hnone)
  books := hc.books
  pairs p := by
    obtain ⟨done, hd⟩ := hc.pairs p
    refine ⟨done, hd.frame rfl rfl rfl rfl fun _ => ?_⟩
    cases hrouter : c.queue with
    -- where nobody routes, nobody listens
    | none => exact absurd (hl.symm.trans (hc.router hrouter)) (by decide)
    | some waits => simp [routing, waiting, hrouter, hs, hq]

/-- The listener ends. -/
theorem Kept.finished {f : Feed} (hc : c.Kept t₀ sent) (hs : c.source = .feed f)
    (hq : f.queue = []) (hclosed : f.closed = true) :
    ({ c with listening := false } : Pipeline).Kept t₀ sent where
  settings := hc.settings
  tracked := hc.tracked
  dropped := hc.dropped
  feed := ⟨f, hs, fun _ => ⟨hq, hclosed⟩⟩
  router _ := rfl
  books := hc.books
  pairs p := by
    obtain ⟨done, hd⟩ := hc.pairs p
    exact ⟨done, hd.frame rfl rfl rfl rfl fun _ => rfl⟩

theorem Kept.delivered {queue : List Message} (hc : c.Kept t₀ sent)
    (hq : c.queue = some (m :: queue)) (hk : c.serving m.pair = some k) :
    ({ c with queue := some queue }.serve m.pair
      { k with inbox := k.inbox.deliver m } : Pipeline).Kept t₀ sent where
  settings := hc.settings
  tracked := hc.tracked
  dropped := hc.dropped
  feed := hc.feed
  router hnone := absurd hnone (by simp [serve])
  books := hc.books
  pairs := by
    obtain ⟨done, hown⟩ := hc.pairs m.pair
    refine custody_of_pair hc.pairs ⟨done, hown.delivered hq hk⟩ fun p done hp hd => ?_
    refine hd.frame (serving_serve_of_ne hp) rfl rfl rfl fun _ => ?_
    simp [routing, waiting, serve, hq, forPair_cons_of_ne hp]

theorem Kept.opened {queue : List Message} {registry : Registry} {handle : Handle}
    (hc : c.Kept t₀ sent) (hq : c.queue = some (m :: queue))
    (ht : c.tracked.contains m.pair = true) (hk : c.serving m.pair = none)
    (hr : c.registry.register m.pair = (registry, handle)) :
    ({ c with queue := some queue, registry }.serve m.pair
      { handle
        synchronizer :=
          .new m.pair c.settings.window ((registry.read? handle).getD (.empty m.pair))
        inbox := ⟨[], [m]⟩ } : Pipeline).Kept t₀ sent := by
  obtain ⟨done, hown⟩ := hc.pairs m.pair
  have hv : c.registry.view? m.pair = none := by
    cases hown.served with
    | absent _ hv => exact hv
    | present hk₀ => exact absurd (hk.symm.trans hk₀) (by simp)
  have hregistry : registry = (c.registry.register m.pair).1 := by rw [hr]
  refine ⟨hc.settings, hc.tracked, hc.dropped, hc.feed,
    fun hnone => absurd hnone (by simp [serve]), hregistry ▸ hc.books.register hv, ?_⟩
  refine custody_of_pair hc.pairs
    ⟨done, hown.opened hc.settings hq (hc.tracked ▸ ht) hk hr⟩ fun p done hp hd => ?_
  subst hregistry
  refine hd.frame (serving_serve_of_ne hp) (Registry.view?_register_of_ne hv hp)
    (Registry.book?_register_of_ne hc.books hv hp) rfl fun _ => ?_
  simp [routing, waiting, serve, hq, forPair_cons_of_ne hp]

/-- The router drops a message of a pair that is not tracked. -/
theorem Kept.rejected {queue : List Message} (hc : c.Kept t₀ sent)
    (hq : c.queue = some (m :: queue)) (ht : c.tracked.contains m.pair = false) :
    ({ c with queue := some queue } : Pipeline).Kept t₀ sent where
  settings := hc.settings
  tracked := hc.tracked
  dropped := hc.dropped
  feed := hc.feed
  router hnone := absurd hnone (by simp)
  books := hc.books
  pairs p := by
    obtain ⟨done, hd⟩ := hc.pairs p
    refine ⟨done, hd.frame rfl rfl rfl rfl fun htp => ?_⟩
    -- of a pair that is not tracked nothing is said
    have hp : p ≠ m.pair := fun hp => by
      rw [← hc.tracked, hp, ht] at htp
      exact Bool.false_ne_true htp
    simp [routing, waiting, hq, forPair_cons_of_ne hp]

/-- The router ends. -/
theorem Kept.closed (hc : c.Kept t₀ sent) (hq : c.queue = some []) (hl : c.listening = false) :
    ({ c with queue := none } : Pipeline).Kept t₀ sent where
  settings := hc.settings
  tracked := hc.tracked
  dropped := hc.dropped
  feed := hc.feed
  router _ := hl
  books := hc.books
  pairs p := by
    obtain ⟨done, hd⟩ := hc.pairs p
    refine ⟨done, hd.frame rfl rfl rfl rfl fun _ => ?_⟩
    simp [routing, waiting, hq]

theorem Kept.recovered (hc : c.Kept t₀ sent) (hk : c.serving p = some k) :
    (c.serve p { k with recovering := false }).Kept t₀ sent where
  settings := hc.settings
  tracked := hc.tracked
  dropped := hc.dropped
  feed := hc.feed
  router := hc.router
  books := hc.books
  pairs := by
    obtain ⟨done, hown⟩ := hc.pairs p
    refine custody_of_pair hc.pairs ⟨done, hown.recovered hk⟩ fun q done hq hd => ?_
    exact hd.frame (serving_serve_of_ne hq) rfl rfl rfl fun _ => rfl

theorem Kept.processed {inbox : Inbox} {s : Synchronizer} {outcome : Except Error Applied}
    (hc : c.Kept t₀ sent) (hk : c.serving p = some k) (hm : k.inbox.take? = some (m, inbox))
    (hp : k.synchronizer.process m = (s, outcome)) :
    ({ c with
      registry := c.registry.write k.handle fun _ => s.book
      trades := c.trades.after m outcome }.serve p
        { k with synchronizer := s, inbox, recovering := !outcome.isOk } : Pipeline).Kept
          t₀ sent := by
  obtain ⟨done, hd⟩ := hc.pairs p
  obtain ⟨rfl, hown⟩ := hd.processed hc.dropped hk hm hp
  have hv : c.registry.view? m.pair = some k.handle := by
    cases hd.served with
    | absent hk₀ => exact absurd (hk.symm.trans hk₀) (by simp)
    | present hk₀ _ _ hv =>
      obtain rfl := Option.some.inj (hk.symm.trans hk₀)
      exact hv
  refine ⟨hc.settings, hc.tracked, dropped_after.trans hc.dropped, hc.feed, hc.router,
    hc.books.write, custody_of_pair hc.pairs ⟨_, hown⟩ fun q done hq hd => ?_⟩
  exact hd.frame (serving_serve_of_ne hq) rfl (Registry.book?_write_of_ne hc.books hv hq)
    (forPair_after_of_ne hq) fun _ => rfl

/-- **Whatever a task does, every message is still in custody.** -/
theorem Moved.kept (h : Moved c c') (hc : c.Kept t₀ sent) : c'.Kept t₀ sent := by
  cases h with
  | forwarded hs hl hq => exact hc.forwarded hs hl hq
  | finished hs _ hq hclosed => exact hc.finished hs hq hclosed
  | delivered hq _ hk => exact hc.delivered hq hk
  | opened hq ht hk hr => exact hc.opened hq ht hk hr
  | rejected hq ht => exact hc.rejected hq ht
  | closed hq hl => exact hc.closed hq hl
  | recovered hk _ => exact hc.recovered hk
  | processed hk _ hm hp => exact hc.processed hk hm hp

/-- A message is sent to the feed. -/
theorem Kept.send {f : Feed} (h : c.Kept t₀ sent) (hs : c.source = .feed f)
    (hopen : f.closed = false) (m : Message) :
    ({ c with source := .feed (f.send m) } : Pipeline).Kept t₀ (sent ++ [m]) := by
  obtain ⟨f', hsource, hends⟩ := h.feed
  obtain rfl : f' = f := Source.feed.inj (hsource.symm.trans hs)
  refine ⟨h.settings, h.tracked, h.dropped, ⟨_, rfl, fun hl => ?_⟩, h.router, h.books, fun p => ?_⟩
  · exact absurd (hopen.symm.trans (hends hl).2) (by decide)
  · obtain ⟨done, hd⟩ := h.pairs p
    have hwait : c.waiting = f'.queue := by rw [waiting, hsource]
    refine ⟨done, ⟨?_, hd.tracked, fun hp => ?_, hd.trades⟩⟩
    · cases hd.served with
      | absent hk hv => exact .absent hk hv
      | present hk hsaved hsync hv hb hne => exact .present hk hsaved hsync hv hb hne
    · show forPair p (sent ++ [m]) =
        done ++ c.received p ++ forPair p (c.routing ++ (f'.queue ++ [m]))
      rw [forPair_append, hd.sent hp, hwait]
      simp only [forPair_append, List.append_assoc]

/-- The feed is closed. -/
theorem Kept.closeFeed {f : Feed} (h : c.Kept t₀ sent) (hs : c.source = .feed f) :
    ({ c with source := .feed f.close } : Pipeline).Kept t₀ sent := by
  obtain ⟨f', hsource, hends⟩ := h.feed
  obtain rfl := Source.feed.inj (hsource.symm.trans hs)
  refine ⟨h.settings, h.tracked, h.dropped, ⟨_, rfl, fun hl => ⟨(hends hl).1, rfl⟩⟩, h.router,
    h.books, fun p => ?_⟩
  obtain ⟨done, hd⟩ := h.pairs p
  refine ⟨done, hd.frame rfl rfl rfl rfl fun _ => ?_⟩
  simp [routing, waiting, hsource, Feed.close]

end Pipeline

namespace Tracker

open Pipeline (Kept)

variable {t₀ t t' : Tracker} {ms : List Message}

/-- What a start leaves of a tracker with a feed. -/
theorem pipeline_start {f : Feed} (hfeed : t₀.source = .feed f) : t₀.start.pipeline =
    { settings := t₀.settings
      tracked := t₀.tracked
      source := .feed f
      listening := true
      queue := some []
      serving := fun _ => none
      registry := t₀.registry.clear
      trades := t₀.trades } := by
  have hsource : t₀.stop.source = .feed f := hfeed
  unfold start launch
  simp only [pipeline_wake]
  simp only [pipeline, hsource]
  rfl

theorem kept_start (hfeed : t₀.source = .feed {}) : t₀.start.pipeline.Kept t₀ [] := by
  rw [pipeline_start hfeed]
  refine ⟨rfl, rfl, rfl, ⟨{}, rfl, fun hl => absurd hl (by simp)⟩, fun h => absurd h (by simp),
    Registry.sound_clear _, fun p => ⟨[], .absent rfl Registry.view?_clear, fun h => absurd rfl h,
      fun _ => rfl, ?_⟩⟩
  cases t₀.trades.dropped <;> exact (List.append_nil _).symm

theorem pipeline_changeFeed {f : Feed} (g : Feed → Feed) (hs : t.source = .feed f) :
    (t.changeFeed g).pipeline = { t.pipeline with source := .feed (g f) } := by
  unfold changeFeed
  rw [hs]
  simp only
  split <;> rfl

/-- An event keeps all messages in custody, those included that it sends. -/
theorem happen?_kept {e : Event} (h : t.happen? e = some t') (hk : t.pipeline.Kept t₀ ms) :
    t'.pipeline.Kept t₀ (ms ++ e.sent?.toList) := by
  obtain ⟨f, hs, -⟩ := hk.feed
  cases e with
  | send m =>
    simp only [happen?] at h
    split at h
    · rename_i hopen
      obtain rfl := Option.some.inj h
      have hclosed : f.closed = false := by
        rw [isOpen, show t.source = .feed f from hs] at hopen
        simpa using hopen
      rw [send, pipeline_changeFeed _ hs]
      exact hk.send hs hclosed m
    · exact absurd h (by simp)
  | closeFeed =>
    obtain rfl := Option.some.inj h
    rw [closeFeed, pipeline_changeFeed _ hs]
    exact (List.append_nil ms).symm ▸ hk.closeFeed hs
  | turn name => exact (List.append_nil ms).symm ▸ (step?_moved hs h).kept hk
  | yield =>
    obtain rfl := Option.some.inj h
    exact (List.append_nil ms).symm ▸ hk
  | pass time =>
    simp only [happen?] at h
    split at h
    · obtain rfl := Option.some.inj h
      exact (List.append_nil ms).symm ▸ hk
    · exact absurd h (by simp)
  | ring =>
    obtain rfl := Option.some.inj h
    exact (List.append_nil ms).symm ▸ hk

theorem kept_of_perform? {es : List Event} : ∀ {t : Tracker} {ms : List Message},
    t.perform? es = some t' → t.pipeline.Kept t₀ ms → t'.pipeline.Kept t₀ (ms ++ sent es) := by
  induction es with
  | nil =>
    intro t ms h hk
    obtain rfl := Option.some.inj h
    simpa [sent] using hk
  | cons e es ih =>
    intro t ms h hk
    obtain ⟨t₁, h₁, h⟩ := Option.bind_eq_some_iff.mp h
    have hsent : sent (e :: es) = e.sent?.toList ++ sent es := by
      unfold sent
      rw [List.filterMap_cons]
      cases e.sent? <;> rfl
    rw [hsent, ← List.append_assoc]
    exact ih h (happen?_kept h₁ hk)

/-- **After every interleaving since the start all messages are in custody.** -/
theorem perform?_kept {es : List Event} (hfeed : t₀.source = .feed {})
    (h : t₀.start.perform? es = some t) : t.pipeline.Kept t₀ (sent es) :=
  kept_of_perform? h (kept_start hfeed)

end Tracker

end BookFeed
