import BookFeed.Proofs.Tracker.Rest

/-!
# Pairs do not notice each other

A tracker with a feed is as good as a separate synchronizer for each tracked pair. However the tasks
take turns while messages come in, once they are idle every pair has the book and the trades that
its own messages make, taken in the order in which they were sent (`Settled`).

* `Pipeline.Kept.settled`: where nothing is on its way, all messages have been processed;
* **`pairs_independent`**: books and trades after any interleaving.
-/

namespace BookFeed

open Message (forPair)
open Synchronizer (initial)

/-- The pair `p` has what its messages `own` make since `t₀` was started: the book of a synchronizer
that has processed just these, if the pair is tracked and there are any, and their trades, unless
nobody can read them any more. -/
structure Tracker.Settled (t₀ t : Tracker) (p : String) (own : List Message) : Prop where
  book : t.registry.book? p =
    if t₀.tracked.contains p ∧ own ≠ [] then
      some ((initial p p t₀.settings.window).run own).book
    else none
  registered : t.registry.contains p = (t.registry.book? p).isSome
  trades : forPair p t.trades.queue = forPair p t₀.trades.queue ++
    if t₀.tracked.contains p ∧ t₀.trades.dropped = false then Message.trades own else []

/-- Nothing else decides about the book and the trades of a pair. -/
theorem Tracker.Settled.unique {t₀ t t' : Tracker} {p : String} {own : List Message}
    (h : t₀.Settled t p own) (h' : t₀.Settled t' p own) :
    t.registry.book? p = t'.registry.book? p ∧
      forPair p t.trades.queue = forPair p t'.trades.queue :=
  ⟨h.book.trans h'.book.symm, h.trades.trans h'.trades.symm⟩

/-- **Where nothing is on its way, every pair has what its messages make.** -/
theorem Pipeline.Kept.settled {t₀ t : Tracker} {sent : List Message} {p : String}
    (h : t.pipeline.Kept t₀ sent) (hreceived : t.pipeline.received p = [])
    (hrouting : t.pipeline.routing = []) (hwaiting : t.pipeline.waiting = []) :
    t₀.Settled t p (forPair p sent) := by
  obtain ⟨done, hd⟩ := h.pairs p
  have hall : t₀.tracked.contains p = true → forPair p sent = done := by
    intro hp
    rw [hd.sent hp, hreceived, hrouting, hwaiting]
    simp [forPair]
  have htrades : forPair p t.trades.queue = forPair p t₀.trades.queue ++
      if t₀.trades.dropped then [] else Message.trades done := hd.trades
  cases hd.served with
  | absent hk hv =>
    have hview : t.registry.view? p = none := hv
    have hbook : t.registry.book? p = none := by rw [Registry.book?, hview]; rfl
    refine ⟨?_, ?_, ?_⟩
    · rw [if_neg fun hp => hp.2 (hall hp.1), hbook]
    · rw [Registry.contains, hview, hbook]
      rfl
    · have hnone : Message.trades [] = [] := rfl
      rw [htrades, hnone, ite_self]
      split
      · rename_i hp
        rw [hall hp.1, hnone]
      · rfl
  | @present _ k hk hsaved hs hv hb hne =>
    have hview : t.registry.view? p = some k.handle := hv
    have hbook : t.registry.book? p = some k.synchronizer.book := hb
    have hp : t₀.tracked.contains p = true := hd.tracked (by simp [hk])
    have hlive : k.inbox.live = [] := (received_eq hk).symm.trans hreceived
    rw [hlive, List.append_nil] at hne
    rw [hall hp]
    refine ⟨?_, ?_, ?_⟩
    · rw [if_pos ⟨hp, hne⟩, hbook, hs]
    · rw [Registry.contains, hview, hbook]
      rfl
    · rw [htrades]
      cases t₀.trades.dropped <;> simp [hp]

namespace Tracker

open Synchronizer (sampleOpening sampleOrders sampleTrade)

theorem settled_of_idle {t₀ t : Tracker} {es : List Event} (hfeed : t₀.source = .feed {})
    (hrun : t₀.start.perform? es = some t) (hidle : t.Idle) (p : String) :
    t₀.Settled t p (forPair p (sent es)) := by
  have hk : t.pipeline.Kept t₀ (sent es) := perform?_kept hfeed hrun
  obtain ⟨hreceived, hrouting, hwaiting⟩ := hidle.nothing_left hk p
  exact hk.settled hreceived hrouting hwaiting

/-- **Pairs do not notice each other.** Whatever is sent to the new feed of a tracker after its
start, and however its tasks take turns: tasks and time can always lead to rest, and wherever they
have, each pair has what its own messages make, in the order in which they were sent and whether or
not some of them failed. Another run in which the pair was sent the same, among other messages of
other pairs, gives it the same book and trades. -/
theorem pairs_independent (t₀ t : Tracker) (es : List Event) (hfeed : t₀.source = .feed {})
    (hrun : t₀.start.perform? es = some t) :
    (∃ t', t.Reaches t' ∧ t'.Idle) ∧
      (t.Idle → ∀ p : String, t₀.Settled t p (forPair p (sent es)) ∧
        ∀ (es' : List Event) (t' : Tracker), t₀.start.perform? es' = some t' → t'.Idle →
          forPair p (sent es') = forPair p (sent es) →
          t'.registry.book? p = t.registry.book? p ∧
            forPair p t'.trades.queue = forPair p t.trades.queue) := by
  refine ⟨exists_idle (perform?_kept hfeed hrun), fun hidle p => ?_⟩
  have hsettled := settled_of_idle hfeed hrun hidle p
  refine ⟨hsettled, fun es' t' hrun' hidle' hsame => ?_⟩
  have hsettled' := settled_of_idle hfeed hrun' hidle' p
  rw [hsame] at hsettled'
  exact hsettled'.unique hsettled

/-- The second message of one pair makes its total overflow, so the task pauses, while messages of
the other pair and of one that is not tracked come in. -/
theorem pairs_independent_fault :
    let t₀ : Tracker :=
      { exchange := "sample", settings := {}, source := .feed {},
        tracked := .ofList ["BTC-USDT", "ETH-USDT"] }
    let eth (m : Message) : Event := .send { m with pair := "ETH-USDT" }
    let overflowing : Decimal := .ofNat 79228162514264337593543950335
    let before : List Event :=
      [eth (sampleOrders 10 1 "A" (.ofNat 100) (.ofNat 1)), .turn .listener,
        .send (sampleOrders 11 1 "B" (.ofNat 200) (.ofNat 2)), .turn .router,
        eth (sampleOpening 12 2 "C" (.ofNat 100) overflowing), .turn (.pair "ETH-USDT"),
        .turn .listener, .turn .listener, .turn .router, .turn .router, .turn (.pair "ETH-USDT")]
    let after : List Event :=
      [eth (sampleTrade 13 3 (.ofNat 100) (.ofNat 1)),
        .send { sampleTrade 13 4 (.ofNat 9) (.ofNat 9) with pair := "XRP-USDT" },
        .send (sampleTrade 14 5 (.ofNat 200) (.ofNat 2)), .closeFeed,
        .turn .listener, .turn .listener, .turn .listener, .turn .listener,
        .turn .router, .turn .router, .turn .router, .turn .router,
        .turn (.pair "BTC-USDT"), .turn (.pair "BTC-USDT"), .pass (Nanos.ofSeconds 6), .ring,
        .turn (.pair "ETH-USDT"), .turn (.pair "ETH-USDT")]
    t₀.source = .feed {} ∧
      ((t₀.start.perform? before).any (·.schedule.isAsleep (.pair "ETH-USDT"))) = true ∧
      ∃ t, t₀.start.perform? (before ++ after) = some t ∧ t.Idle ∧
        (∃ t', t.Reaches t' ∧ t'.Idle) ∧
        ∀ p : String, t₀.Settled t p (forPair p (sent (before ++ after))) ∧
          ∀ (es' : List Event) (t' : Tracker), t₀.start.perform? es' = some t' → t'.Idle →
            forPair p (sent es') = forPair p (sent (before ++ after)) →
            t'.registry.book? p = t.registry.book? p ∧
              forPair p t'.trades.queue = forPair p t.trades.queue := by
  intro t₀ eth overflowing before after
  have hidle : ((t₀.start.perform? (before ++ after)).any fun t => decide t.Idle) = true := by
    decide +kernel
  refine ⟨rfl, by decide +kernel, ?_⟩
  cases hrun : t₀.start.perform? (before ++ after) with
  | none =>
    rw [hrun] at hidle
    exact absurd hidle Bool.false_ne_true
  | some t =>
    rw [hrun, Option.any_some, decide_eq_true_eq] at hidle
    obtain ⟨hreach, hsettled⟩ := pairs_independent t₀ t (before ++ after) rfl hrun
    exact ⟨t, rfl, hidle, hreach, hsettled hidle⟩

end Tracker

end BookFeed
