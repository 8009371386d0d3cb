import BookFeed.Proofs.Tracker.Closing

/-!
# Trackers whose tasks have gone

When a stop is over, no task is left that was told to go. But the router may have spawned the task
of a pair after those of all pairs were told to go, and nobody has told this one. So a tracker is
stopped once more before it is started. As no router is there any more, now no task gets away.

`Shut` says what cannot change in the meantime, whatever the tasks of pairs still do.

* `standing_happen?`: where nobody listens or routes, nobody will, and no pair gets a book;
* **`Closing.Shut.run`**: what the second stop has ended has ended;
* **`Closing.Shut.launch_eq_start`**: so the tracker is launched like one that is stopped at once.
-/

namespace BookFeed

namespace Tracker

/-- Who listens and routes, and which pairs have books. -/
structure Standing where
  listening : Bool
  router : Option Router
  books : List (String × Handle)

def standing (t : Tracker) : Standing := ⟨t.listening, t.router, t.registry.entries⟩

variable {t t' : Tracker} {p : String} {e : Event}

theorem standing_reportDiffs (task : PairTask) : (t.reportDiffs p task).standing = t.standing := by
  unfold reportDiffs
  split <;> rfl

theorem standing_processNext? (h : t.processNext? p = some t') : t'.standing = t.standing := by
  unfold processNext? at h
  split at h
  · exact absurd h (by simp)
  · split at h
    · obtain rfl := Option.some.inj h
      exact standing_reportDiffs _
    · split at h
      · obtain rfl := Option.some.inj h
        unfold process
        simp only
        split
        · rw [standing_reportDiffs]
          unfold countApplied
          split <;> rfl
        · rfl
      · exact absurd h (by simp)

/-- Where nobody listens or routes, only the tasks of pairs do anything, and none gets a book. -/
theorem standing_happen? (he : e.isRouting = false) (hl : t.listening = false)
    (h : t.happen? e = some t') : t'.standing = t.standing ∧ (t.pairs = [] → t'.pairs = []) := by
  rcases happen?_cases he h with ⟨p, -, hp⟩ | ⟨-, ⟨hl', -⟩ | ⟨source, schedule, rfl⟩⟩
  · refine ⟨standing_processNext? hp, fun hnil => ?_⟩
    have hnone : t.pair? p = none := by
      rw [pair?, hnil]
      rfl
    simp only [processNext?, hnone] at hp
    exact absurd hp (by simp)
  · exact absurd (hl.symm.trans hl') Bool.false_ne_true
  · exact ⟨rfl, id⟩

theorem standing_stray? {task task' : PairTask} (h : t.stray? p task = some (t', task')) :
    t'.standing = t.standing ∧ t'.pairs = t.pairs := by
  unfold stray? at h
  split at h
  · exact absurd h (by simp)
  · split at h
    · exact absurd h (by simp)
    · rename_i t₁ hstep
      obtain ⟨task₁, -, heq⟩ := Option.map_eq_some_iff.mp h
      obtain ⟨rfl, -⟩ := Prod.mk.inj heq
      have halone : t₁.standing = ({ t with pairs := [(p, task)] } : Tracker).standing :=
        standing_processNext? hstep
      exact ⟨halone, rfl⟩

/-- Where nothing is left to stop, a stop before the launch changes nothing. -/
theorem launch_eq_start (hl : t.listening = false) (hr : t.router = none) (hp : t.pairs = [])
    (hb : t.registry.entries = []) : t.launch = t.start := by
  cases t with
  | mk exchange settings source tracked epoch schedule listening router pairs registry =>
    obtain ⟨entries, books⟩ := registry
    simp only at hl hr hp hb
    subst hl hr hp hb
    rfl

namespace Closing

variable {c : Closing}

/-- Nobody listens or routes or has a call under way, and what the stop has ended has ended. -/
structure Shut (c : Closing) : Prop where
  listening : c.tracker.listening = false
  router : c.tracker.router = none
  calls : c.system.calls = []
  free : c.system.holder = none
  drained : .drain ∉ c.agenda → c.tracker.pairs = []
  cleared : .clear ∉ c.agenda → c.tracker.registry.entries = []

theorem Over.shut_again (hc : c.Over) : c.again.Shut where
  listening := hc.listening
  router := hc.router
  calls := hc.calls
  free := hc.free
  drained h := absurd (show .drain ∈ Statement.all by decide) h
  cleared h := absurd (show .clear ∈ Statement.all by decide) h

/-- This stays so unless somebody begins to listen or route, or a pair gets a task or a book. -/
theorem Shut.setTracker (hc : c.Shut) {t : Tracker} (hs : t.standing = c.tracker.standing)
    (hp : c.tracker.pairs = [] → t.pairs = []) : (c.setTracker t).Shut where
  listening := (congrArg Standing.listening hs).trans hc.listening
  router := (congrArg Standing.router hs).trans hc.router
  calls := hc.calls
  free := hc.free
  drained h := hp (hc.drained h)
  cleared h := (congrArg Standing.books hs).trans (hc.cleared h)

theorem Shut.proceed (hc : c.Shut) : c.proceed.Shut := by
  unfold Closing.proceed
  split
  · exact hc
  · rename_i agenda ha
    exact ⟨hc.listening, hc.router, hc.calls, hc.free, fun h => hc.drained (by simpa [ha] using h),
      fun h => hc.cleared (by simpa [ha] using h)⟩
  · rename_i agenda ha
    exact ⟨hc.listening, hc.router, hc.calls, hc.free, fun _ => rfl,
      fun h => hc.cleared (by simpa [ha] using h)⟩
  · rename_i agenda ha
    split
    · exact hc
    · exact ⟨hc.listening, hc.router, hc.calls, hc.free,
        fun h => hc.drained (by simpa [ha] using h), fun _ => rfl⟩

/-- Nobody takes a turn but the tasks of pairs. -/
theorem Shut.other (hc : c.Shut) (e : Tracker.Event) :
    ({ c with audit := c.audit.step (.other e) } : Closing).Shut := by
  have hquiet : c.system.takeUp = c.system := by
    rcases System.takeUp_cases c.system with hs | ⟨r, m, queue, hr, -⟩ | ⟨r, hr, -⟩
    · exact hs
    · exact absurd (hc.router.symm.trans hr) (by simp)
    · exact absurd (hc.router.symm.trans hr) (by simp)
  simp only [Audit.step]
  split
  · have hsame : c.audit.system.takeUp = c.audit.system := hquiet
    rw [hsame]
    exact hc
  · rename_i he
    rw [Bool.not_eq_true] at he
    cases ht : c.audit.tracker.happen? e with
    | none => exact hc
    | some t =>
      obtain ⟨hstanding, hpairs⟩ := standing_happen? he hc.listening ht
      have hafter := hc.setTracker hstanding hpairs
      have hstep : c.audit.system.step (.other e) = { c.audit.system with tracker := t } :=
        System.step_other he ht
      simp only [hstep]
      exact ⟨hafter.listening, hafter.router, hafter.calls, hafter.free, hafter.drained,
        hafter.cleared⟩

/-- **What the stop has ended has ended, whatever happens.** -/
theorem Shut.step (hc : c.Shut) (e : Event) : (c.step e).Shut := by
  cases e with
  | own => exact hc.proceed
  | other e =>
    cases e with
    | save m => exact hc
    | other e => exact hc.other e
    | go i =>
      have hsame : c.audit.system.step (.go i) = c.audit.system := by
        simp only [System.step, show c.audit.system.calls = [] from hc.calls, List.getElem?_nil]
      simp only [Closing.step, Closing.resume, Audit.step, hsame]
      exact ⟨hc.listening, hc.router, hc.calls, hc.free, hc.drained, hc.cleared⟩
    | hold =>
      have hsame : c.audit.system.step .hold = c.audit.system := by
        simp only [System.step, show c.audit.system.holder = none from hc.free]
      simp only [Closing.step, Audit.step, hsame]
      exact hc
    | takeTrades | readTrades | dropTrades =>
      exact ⟨hc.listening, hc.router, hc.calls, hc.free, hc.drained, hc.cleared⟩
  | leaveListener =>
    simp only [Closing.step]
    split
    · exact ⟨rfl, hc.router, hc.calls, hc.free, hc.drained, hc.cleared⟩
    · exact hc
  | leaveRouter =>
    simp only [Closing.step]
    split
    · exact ⟨hc.listening, rfl, rfl, rfl, hc.drained, hc.cleared⟩
    · exact hc
  | leaveStray i => exact ⟨hc.listening, hc.router, hc.calls, hc.free, hc.drained, hc.cleared⟩
  | stray i =>
    simp only [Closing.step]
    split
    · exact hc
    · unfold wander
      split
      · exact hc
      · rename_i t task' hstray
        obtain ⟨hstanding, hpairs⟩ := standing_stray? hstray
        have hafter := hc.setTracker hstanding fun hp => hpairs.trans hp
        exact ⟨hafter.listening, hafter.router, hafter.calls, hafter.free, hafter.drained,
          hafter.cleared⟩

theorem Shut.run (hc : c.Shut) (es : List Event) : (c.run es).Shut := by
  induction es generalizing c with
  | nil => exact hc
  | cons e es ih => exact ih (hc.step e)

/-- **The tracker is launched like one that is stopped at once.** -/
theorem Shut.launch_eq_start (hc : c.Shut) (hdone : c.agenda = []) :
    c.tracker.launch = c.tracker.start :=
  Tracker.launch_eq_start hc.listening hc.router (hc.drained (hdone ▸ List.not_mem_nil))
    (hc.cleared (hdone ▸ List.not_mem_nil))

end Closing

end Tracker

end BookFeed
