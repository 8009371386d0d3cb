import BookFeed.Proofs.Source.Forwarding
import BookFeed.Proofs.Throttler.Pruning

/-!
# Which pairs a round serves

In a round the tracked pairs are asked for one after the other, and a reply without a message ends
the round: the listener begins anew after a pause, with the first pair. So a pair is served whatever
the replies for the pairs after it are, but not whatever those for the pairs before it are.

* `Round.Sound.reaches`, `Round.Sound.stops`: how far a round goes, by the replies that it has;
* **`rounds_serve`**: whom a round serves; **`faulty_pair_starves`**: whom it does not.
-/

namespace BookFeed

/-! ## One round -/

namespace Round

variable {r : Round} {reply : String → Reply} {before after : List String} {q : String}

/-- The replies to the requests of the round are those of a table. -/
def Follows (r : Round) (reply : String → Reply) : Prop := ∀ a ∈ r.asked, a.reply = reply a.pair

/-- The round has been carried through, or a reply without a message has ended it. -/
def IsDone (r : Round) : Prop := r.IsThrough ∨ ∃ h, r.ending = some (.faulty h)

/-- All replies but the last one brought messages. -/
theorem Replied.dropLast (h : r.Replied) : ∀ a ∈ r.asked.dropLast, a.Brings := by
  unfold Replied at h
  split at h
  · obtain ⟨asked, a, e, hasked, hbrings, -, -⟩ := h
    rw [hasked, List.dropLast_concat]
    exact hbrings
  · exact fun a ha => h a (List.dropLast_subset _ ha)

/-- **A round that is done has reached a pair if all replies for the pairs before it brought
messages.** -/
theorem Sound.reaches (h : r.Sound) (hdone : r.IsDone) (hfollows : r.Follows reply)
    (hpairs : r.pairs = before ++ q :: after)
    (hbefore : ∀ p ∈ before, ∀ now, ∃ m, (reply p).message now p = .ok m) :
    ∃ a ∈ r.asked, a.pair = q := by
  suffices hmem : q ∈ r.asked.map (·.pair) by
    exact List.mem_map.mp hmem
  rcases hdone with hthrough | ⟨halt, hfaulty⟩
  · rw [hthrough, hpairs]
    simp
  · have hreplied := h.replied
    rw [Replied, hfaulty] at hreplied
    obtain ⟨asked, a, e, hasked, -, herror, -⟩ := hreplied
    have hq : before ++ [q] <+: r.pairs := ⟨after, by simp [hpairs]⟩
    rcases List.prefix_or_prefix_of_prefix h.inOrder hq with hshort | hlong
    · rcases List.prefix_concat_iff.mp hshort with heq | hearly
      · rw [heq]
        simp
      · -- the last reply is one for a pair before, which is no fault
        have ha : a ∈ r.asked := by simp [hasked]
        obtain ⟨m, hm⟩ :=
          hbefore a.pair (hearly.subset (List.mem_map_of_mem ha)) a.received
        rw [Asked.message, hfollows a ha, hm] at herror
        exact absurd herror (by simp)
    · exact hlong.subset (by simp)

/-- **A round does not go on after a pair whose reply brings no message.** -/
theorem Sound.stops (h : r.Sound) (hfollows : r.Follows reply)
    (hpairs : r.pairs = before ++ q :: after)
    (hq : ∀ now m, (reply q).message now q ≠ .ok m) :
    r.asked.map (·.pair) <+: before ++ [q] := by
  have hprefix : before ++ [q] <+: r.pairs := ⟨after, by simp [hpairs]⟩
  rcases List.prefix_or_prefix_of_prefix h.inOrder hprefix with hshort | ⟨more, hmore⟩
  · exact hshort
  · obtain ⟨first, later, hasked, hfirst, hlater⟩ := List.map_eq_append_iff.mp hmore.symm
    rcases List.eq_nil_or_concat later with rfl | ⟨later', last, rfl⟩
    · exact ⟨[], by rw [List.append_nil, hasked, List.append_nil, hfirst]⟩
    · -- the request for the pair is not the last one
      have hmem : q ∈ first.map (·.pair) := by
        rw [hfirst]
        exact List.mem_concat_self
      obtain ⟨a, ha, hpair⟩ := List.mem_map.mp hmem
      have hmem : a ∈ r.asked.dropLast := by
        rw [hasked, List.concat_eq_append, ← List.append_assoc, List.dropLast_concat]
        exact List.mem_append_left _ ha
      obtain ⟨m, hm⟩ := h.replied.dropLast a hmem
      rw [Asked.message, hfollows a (List.dropLast_subset _ hmem), hpair] at hm
      exact absurd hm (hq _ m)

end Round

/-! ## All rounds -/

/-- Nothing charged to the throttler counts any more, so a request passes. -/
theorem Throttler.passes_of_idle {t : Throttler} {now : Nat} {path : String}
    (hc : Throttler.Configured t.limits) (hstop : t.stopped = false) (hlive : t.live now = []) :
    (t.attempt now path).2.passes = true := by
  cases hl : t.limit? path with
  | none =>
    unfold attempt
    rw [hstop, hl]
    rfl
  | some l =>
    rw [attempt_of_no_charge hc hstop hl fun d _ charge hcharge => ?_]
    · rfl
    · rw [hlive] at hcharge
      exact absurd hcharge List.not_mem_nil

namespace Listening

variable {l : Listening} {r : Round} {rs : List Round} {q : String}

/-- A look that sends a request sends that for the next pair of the current round. -/
theorem rounds_look {p : Polling} {pair : String} {rest : List String} {now : Nat}
    {received : Binary64} {a : Asked} (hp : l.polling = some p) (hround : p.round = pair :: rest)
    (ha : l.source.asked? now received pair = some a) (hrounds : l.rounds = r :: rs)
    (pairs : List String) :
    ∃ r', (l.look now received pairs).rounds = r' :: rs ∧ r'.asked = r.asked ++ [a] := by
  have hprogress : (l.progress now).round = pair :: rest := by rw [progress, hp]; exact hround
  have hlooked := look_looked l now received pairs
  generalize l.look now received pairs = l' at hlooked ⊢
  cases hlooked with
  | begun hround' | early hround' => exact absurd (hprogress.symm.trans hround') (by simp)
  | brought hp' hround' ha' | faulty hp' hround' ha' =>
    obtain rfl := Option.some.inj (hp.symm.trans hp')
    obtain ⟨rfl, -⟩ := List.cons.inj (hround.symm.trans hround')
    obtain rfl := Option.some.inj (ha.symm.trans ha')
    exact ⟨_, by rw [hrounds]; rfl, rfl⟩
  | full hp' hround' ha' | refused hp' hround' ha' =>
    obtain rfl := Option.some.inj (hp.symm.trans hp')
    obtain ⟨rfl, -⟩ := List.cons.inj (hround.symm.trans hround')
    exact absurd (ha.symm.trans ha') (by simp)

/-- In the round the pair was asked for, and its snapshot was forwarded. -/
def Serves (l : Listening) (r : Round) (q : String) : Prop :=
  ∃ a ∈ r.asked, ∃ m ∈ l.output, a.pair = q ∧ a.message = .ok m ∧ m.IsOf .snapshot q

/-- **Whom a round serves.** Take any record of a listener, a round in it, and a table with the
replies that the requests of the round had. If the round is done, it has served each pair whose
reply brings its snapshot and before which all replies bring messages, whatever the other replies
are. No round goes on after a pair whose reply brings none. Every round but the current one is
done, refused by the throttler or abandoned. The current one goes on with the next pair whenever
the throttler lets a request pass at a look, as one that is not stopped does if nothing is charged
to it. -/
theorem rounds_serve (s : PolledSource) (events : List Event) :
    let l := ({ source := s } : Listening).run events
    (∀ r ∈ l.rounds, ∀ reply : String → Reply, r.Follows reply →
      ∀ before q after, r.pairs = before ++ q :: after →
        (r.IsDone → (∀ p ∈ before, ∀ now, ∃ m, (reply p).message now p = .ok m) →
          (reply q).BringsSnapshot q → l.Serves r q) ∧
        ((∀ now m, (reply q).message now q ≠ .ok m) →
          r.asked.map (·.pair) <+: before ++ [q])) ∧
    (∀ r ∈ if l.isBusy then l.rounds.tail else l.rounds,
      r.IsDone ∨ (∃ h, r.ending = some (.refused h)) ∨ r.ending = some .abandoned) ∧
    ∀ p pair rest, l.polling = some p → p.round = pair :: rest → ∀ now received pairs,
      (l.source.throttler.attempt now snapshotPath).2.passes = true ∨
          (Throttler.Configured l.source.throttler.limits ∧ l.source.throttler.stopped = false ∧
            l.source.throttler.live now = []) →
        ∃ r r' rs, l.rounds = r :: rs ∧ (l.look now received pairs).rounds = r' :: rs ∧
          r'.asked = r.asked ++ [⟨pair, received, l.source.peer.reply 0⟩] := by
  intro l
  have hsound : l.Sound := (sound_new s).run events
  have hheard : Heard s l := heard_run s events
  refine ⟨fun r hr reply hfollows before q after hpairs => ⟨?serves, ?stops⟩, ?ended, ?goesOn⟩
  case serves =>
    intro hdone hbefore ⟨m, hm, hq⟩
    obtain ⟨a, ha, rfl⟩ := (hsound.sound r hr).reaches hdone hfollows hpairs hbefore
    have hmessage : a.message = .ok m := by
      rw [Asked.message, hfollows a ha]
      exact hq a.received
    refine ⟨a, ha, m, ?_, rfl, hmessage, hm⟩
    rw [hheard.output]
    exact List.mem_filterMap.mpr
      ⟨a, List.mem_flatMap.mpr ⟨r, List.mem_reverse.mpr hr, ha⟩, by rw [hmessage]; rfl⟩
  case stops => exact (hsound.sound r hr).stops hfollows hpairs
  case ended =>
    intro r hr
    have hover : r.IsOver := by
      split at hr
      · exact hsound.past r hr
      · rename_i hidle
        exact hsound.idle (Bool.not_eq_true _ ▸ hidle) r hr
    cases he : r.ending with
    | none => exact .inl (.inl (hover he))
    | some ending =>
      cases ending with
      | faulty h => exact .inl (.inr ⟨h, he⟩)
      | refused h => exact .inr (.inl ⟨h, rfl⟩)
      | abandoned => exact .inr (.inr rfl)
  case goesOn =>
    intro p pair rest hp hround now received pairs hroom
    have hpasses : (l.source.throttler.attempt now snapshotPath).2.passes = true := by
      rcases hroom with hpasses | ⟨hc, hstop, hlive⟩
      · exact hpasses
      · exact Throttler.passes_of_idle hc hstop hlive
    obtain ⟨r, rs, hrounds, -, -, -⟩ := hsound.busy hp hround
    obtain ⟨r', hr', hasked⟩ := rounds_look hp hround (if_pos hpasses) hrounds pairs
    exact ⟨r, r', rs, hrounds, hr', hasked⟩

/-! ## A round with a fault -/

/-- The frame of a snapshot of a pair. -/
def snapshotFrame (pair : String) : String :=
  "\x7b\"type\":\"snapshot\",\"trading_pair\":\"" ++ pair ++
    "\",\"timestamp\":10,\"update_id\":1,\"bids\":[[\"100\",\"1\"]],\"asks\":[]\x7d"

/-- For one pair there is a snapshot, for every other one a status of an error. -/
def onlyFor (pair asked : String) : Reply :=
  if asked = pair then .response 200 (snapshotFrame pair) else .response 500 ""

/-- A source that is polled for `BTC-USDT` and `ETH-USDT` and has a snapshot of only one pair. -/
def sourceOf (pair : String) : PolledSource :=
  scriptedSource (["BTC-USDT", "ETH-USDT"].map (onlyFor pair))

/-- A listener begins a round for both pairs, and then looks as often as given. -/
def listened (pair : String) (looks : Nat) : Listening :=
  ({ source := sourceOf pair } : Listening).run
    (List.replicate (looks + 1) (.look 0 (.ofNat 0) ["BTC-USDT", "ETH-USDT"]))

/-- The first pair is served, although the reply for the second is a fault. -/
theorem rounds_serve_before_fault :
    ∃ r ∈ (listened "BTC-USDT" 2).rounds, (∃ h, r.ending = some (.faulty h)) ∧
      (listened "BTC-USDT" 2).Serves r "BTC-USDT" := by
  let r : Round :=
    { pairs := ["BTC-USDT", "ETH-USDT"]
      asked := ["BTC-USDT", "ETH-USDT"].map fun pair => ⟨pair, .ofNat 0, onlyFor "BTC-USDT" pair⟩
      ending := some (.faulty (.error (.restApi "status 500"))) }
  have hr : (listened "BTC-USDT" 2).rounds = [r] := by decide +kernel
  have hmem : r ∈ (listened "BTC-USDT" 2).rounds := hr ▸ List.mem_singleton_self r
  have hserves := (rounds_serve (sourceOf "BTC-USDT") _).1 r hmem (onlyFor "BTC-USDT")
    (by unfold Round.Follows; decide +kernel) [] "BTC-USDT" ["ETH-USDT"] rfl
  exact ⟨r, hmem, ⟨_, rfl⟩,
    hserves.1 (.inr ⟨_, rfl⟩) (fun _ h => absurd h List.not_mem_nil) (by decide +kernel)⟩

/-- **A pair after a faulty one is not served**, although there is a snapshot of it. -/
theorem faulty_pair_starves :
    ∃ r ∈ (listened "ETH-USDT" 1).rounds, r.IsDone ∧ r.Follows (onlyFor "ETH-USDT") ∧
      "ETH-USDT" ∈ r.pairs ∧ (onlyFor "ETH-USDT" "ETH-USDT").BringsSnapshot "ETH-USDT" ∧
      (∀ a ∈ r.asked, a.pair ≠ "ETH-USDT") ∧ (listened "ETH-USDT" 1).output = [] := by
  let r : Round :=
    { pairs := ["BTC-USDT", "ETH-USDT"]
      asked := [⟨"BTC-USDT", .ofNat 0, .response 500 ""⟩]
      ending := some (.faulty (.error (.restApi "status 500"))) }
  have hr : (listened "ETH-USDT" 1).rounds = [r] := by decide +kernel
  refine ⟨r, hr ▸ List.mem_singleton_self r, .inr ⟨_, rfl⟩, ?_, ?_, ?_, ?_, ?_⟩
  · unfold Round.Follows
    decide +kernel
  all_goals decide +kernel

end Listening

end BookFeed
