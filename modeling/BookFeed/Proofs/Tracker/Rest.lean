import BookFeed.Proofs.Tracker.Delivery
import Mathlib.Algebra.BigOperators.Group.Finset.Basic
import Mathlib.Algebra.Order.BigOperators.Group.List
import Mathlib.Algebra.Order.Group.Nat
import Mathlib.Data.List.TakeWhile

/-!
# Every tracker comes to rest

`Pipeline.work` counts from above the turns that tasks may still take. Each turn takes away from it
(`Moved.work_lt`), and a pause is over once enough time has passed, so tasks and time alone lead to
a state in which all are idle (`exists_idle`). Then nothing is left in the feed, at the router and
in the inboxes (`Idle.nothing_left`).

Whether a tracker is idle can be evaluated: only pairs that have a task need to be looked at.
-/

namespace BookFeed

/-- The turns that the task of a pair may still take without new messages. -/
def Serving.work (k : Serving) : Nat := 2 * k.inbox.size + k.recovering.toNat

namespace Pipeline

/-- The turns of the tasks of pairs. -/
def tasksWork (c : Pipeline) : Nat :=
  ∑ p ∈ c.tracked.pairs.toFinset, (c.serving p).elim 0 (·.work)

/-- The turns that may be taken before all tasks are idle, counted from above. A message weighs less
the further it has come, and in the end it may bring a pause. -/
def work (c : Pipeline) : Nat :=
  6 * c.waiting.length + 2 * c.listening.toNat + c.queue.elim 0 (4 * ·.length + 1) + c.tasksWork

variable {t₀ : Tracker} {c c' : Pipeline} {p : String} {k : Serving} {m : Message}
  {sent : List Message}

/-- Putting a task back changes a sum over the tasks at one place. -/
theorem sum_serving_serve (g : Serving → Nat) (hp : c.tracked.contains p = true) :
    ∑ q ∈ c.tracked.pairs.toFinset, ((c.serve p k).serving q).elim 0 g + (c.serving p).elim 0 g =
      ∑ q ∈ c.tracked.pairs.toFinset, (c.serving q).elim 0 g + g k := by
  have hmem : p ∈ c.tracked.pairs.toFinset := by
    rw [List.mem_toFinset]
    exact List.contains_iff_mem.mp hp
  have hrest : ∑ q ∈ c.tracked.pairs.toFinset.erase p, ((c.serve p k).serving q).elim 0 g =
      ∑ q ∈ c.tracked.pairs.toFinset.erase p, (c.serving q).elim 0 g := by
    refine Finset.sum_congr rfl fun q hq => ?_
    rw [serving_serve_of_ne (Finset.ne_of_mem_erase hq)]
  have hnew := Finset.add_sum_erase _ (fun q => ((c.serve p k).serving q).elim 0 g) hmem
  have hold := Finset.add_sum_erase _ (fun q => (c.serving q).elim 0 g) hmem
  simp only [serving_serve_self, Option.elim_some] at hnew
  omega

theorem tasksWork_serve (hp : c.tracked.contains p = true) :
    (c.serve p k).tasksWork + (c.serving p).elim 0 (·.work) = c.tasksWork + k.work :=
  sum_serving_serve (·.work) hp

/-- **Every turn takes away from the work that is left.** -/
theorem Moved.work_lt (h : Moved c c') (hc : c.Kept t₀ sent) : c'.work < c.work := by
  have htracked : ∀ {p k}, c.serving p = some k → c.tracked.contains p = true := by
    intro p k hk
    obtain ⟨done, hd⟩ := hc.pairs p
    rw [hc.tracked]
    exact hd.tracked (by simp [hk])
  cases h with
  | @forwarded f m queue hs hl hq =>
    have hwaiting : c.waiting.length = queue.length + 1 := by
      rw [waiting, hs]
      exact congrArg List.length hq
    have hqueue : (c.queue.map (· ++ [m])).elim 0 (4 * ·.length + 1) ≤
        c.queue.elim 0 (4 * ·.length + 1) + 4 := by
      cases c.queue with
      | none => simp
      | some waits => simp; omega
    show 6 * queue.length + 2 * c.listening.toNat +
      (c.queue.map (· ++ [m])).elim 0 (4 * ·.length + 1) + c.tasksWork < c.work
    unfold work
    omega
  | finished hs hl hq hclosed =>
    show 6 * c.waiting.length + 0 + c.queue.elim 0 (4 * ·.length + 1) + c.tasksWork < c.work
    unfold work
    rw [hl, Bool.toNat_true]
    omega
  | @delivered m queue k hq ht hk =>
    have htasks := tasksWork_serve (k := { k with inbox := k.inbox.deliver m }) ht
    have hsize : (k.inbox.deliver m).size = k.inbox.size + 1 := by
      simp only [Inbox.deliver, Inbox.size, List.length_append, List.length_singleton]
      omega
    show 6 * c.waiting.length + 2 * c.listening.toNat + (4 * queue.length + 1) +
      (c.serve m.pair { k with inbox := k.inbox.deliver m }).tasksWork < c.work
    unfold work
    rw [hk] at htasks
    rw [hq]
    simp only [Option.elim_some, Serving.work, hsize, List.length_cons] at htasks ⊢
    omega
  | @opened m queue registry handle hq ht hk hr =>
    generalize Synchronizer.new m.pair c.settings.window
      ((registry.read? handle).getD (.empty m.pair)) = s
    have htasks := tasksWork_serve (k := { handle, synchronizer := s, inbox := ⟨[], [m]⟩ }) ht
    show 6 * c.waiting.length + 2 * c.listening.toNat + (4 * queue.length + 1) +
      (c.serve m.pair { handle, synchronizer := s, inbox := ⟨[], [m]⟩ }).tasksWork < c.work
    unfold work
    rw [hk] at htasks
    rw [hq]
    simp only [Option.elim_none, Option.elim_some, Serving.work, Inbox.size, List.length_nil,
      List.length_cons, Bool.toNat_false] at htasks ⊢
    omega
  | @rejected m queue hq ht =>
    show 6 * c.waiting.length + 2 * c.listening.toNat + (4 * queue.length + 1) + c.tasksWork <
      c.work
    unfold work
    rw [hq]
    simp only [Option.elim_some, List.length_cons]
    omega
  | closed hq hl =>
    show 6 * c.waiting.length + 2 * c.listening.toNat + 0 + c.tasksWork < c.work
    unfold work
    rw [hq]
    simp only [Option.elim_some, List.length_nil]
    omega
  | @recovered p k hk hr =>
    have htasks := tasksWork_serve (k := { k with recovering := false }) (htracked hk)
    show 6 * c.waiting.length + 2 * c.listening.toNat + c.queue.elim 0 (4 * ·.length + 1) +
      (c.serve p { k with recovering := false }).tasksWork < c.work
    unfold work
    rw [hk] at htasks
    simp only [Option.elim_some, Serving.work, hr, Bool.toNat_true, Bool.toNat_false] at htasks
    omega
  | @processed p k m inbox s outcome hk hr hm hp =>
    have htasks := tasksWork_serve
      (k := { k with synchronizer := s, inbox, recovering := !outcome.isOk }) (htracked hk)
    have hsize := Inbox.size_take? hm
    have hpause := Bool.toNat_le (!outcome.isOk)
    show 6 * c.waiting.length + 2 * c.listening.toNat + c.queue.elim 0 (4 * ·.length + 1) +
      (c.serve p { k with synchronizer := s, inbox, recovering := !outcome.isOk }).tasksWork <
        c.work
    unfold work
    rw [hk] at htasks
    simp only [Option.elim_some, Serving.work, hr, Bool.toNat_false] at htasks
    omega

end Pipeline

namespace Tracker

variable {t₀ t t' : Tracker} {ms : List Message}

/-! ## Reaching rest -/

/-- Once enough time has passed, no task pauses. -/
theorem reaches_awake (t : Tracker) :
    ∃ t', t.Reaches t' ∧ t'.pipeline = t.pipeline ∧ t'.schedule.timers = [] := by
  have hdue : ∀ x ∈ t.schedule.timers, x.due ≤ (t.schedule.timers.map (·.due)).sum := fun x hx =>
    List.le_sum_of_mem (List.mem_map_of_mem hx)
  refine ⟨_, .jump (Nat.le_add_right t.now (t.schedule.timers.map (·.due)).sum), rfl, ?_⟩
  refine List.dropWhile_eq_nil_iff.mpr fun x hx => decide_eq_true ?_
  exact (hdue x hx).trans (Nat.le_add_left _ _)

/-- **Tasks and time lead to rest.** -/
theorem exists_idle (hk : t.pipeline.Kept t₀ ms) : ∃ t', t.Reaches t' ∧ t'.Idle := by
  -- on the work left: all pauses end, then somebody takes a turn unless all are idle
  induction hw : t.pipeline.work using Nat.strong_induction_on generalizing t with
  | _ n ih =>
    obtain ⟨t₁, hreach, hsame, hawake⟩ := reaches_awake t
    by_cases hrest : ∀ name, t₁.step? name = none
    · exact ⟨t₁, hreach, hawake, hrest⟩
    · obtain ⟨name, hname⟩ := not_forall.mp hrest
      obtain ⟨t₂, hstep⟩ := Option.ne_none_iff_exists'.mp hname
      have hk₁ : t₁.pipeline.Kept t₀ ms := hsame ▸ hk
      obtain ⟨f, hsource, -⟩ := hk₁.feed
      have hmoved := step?_moved hsource hstep
      have hlt : t₂.pipeline.work < n := by
        rw [← hw, ← hsame]
        exact hmoved.work_lt hk₁
      obtain ⟨t₃, hreach₃, hidle⟩ := ih _ hlt (hmoved.kept hk₁) rfl
      exact ⟨t₃, (hreach.trans (.single (e := .turn name) rfl hstep)).trans hreach₃, hidle⟩

/-! ## At rest -/

theorem step?_of_awake (h : t.schedule.timers = []) (name : TaskName) :
    t.step? name = match name with
      | .listener => if t.listening then t.listen? else none
      | .router => t.route?
      | .pair pair => t.processNext? pair := by
  have hnot : ∀ name, ¬ t.schedule.isAsleep name = true := fun name => by
    simp [Schedule.isAsleep, h]
  cases name with
  | listener => exact if_neg (hnot .listener)
  | router => exact if_neg (hnot .router)
  | pair p => exact if_neg (hnot (.pair p))

/-- Who listens has taken all messages from the feed, and who does not has left none there. -/
theorem Idle.waiting_eq_nil (h : t.Idle) {f : Feed} (hs : t.source = .feed f)
    (hends : t.listening = false → f.queue = []) : t.pipeline.waiting = [] := by
  have hlistener := h.rests .listener
  rw [step?_of_awake h.awake] at hlistener
  have hwaiting : t.pipeline.waiting = f.queue := by
    rw [Pipeline.waiting, show t.pipeline.source = .feed f from hs]
  rw [hwaiting]
  simp only at hlistener
  split at hlistener
  · unfold listen? at hlistener
    simp only [hs] at hlistener
    split at hlistener
    · exact absurd hlistener (by simp)
    · assumption
  · rename_i hl
    exact hends (Bool.not_eq_true _ ▸ hl)

theorem Idle.routing_eq_nil (h : t.Idle) : t.pipeline.routing = [] := by
  have hrouter := h.rests .router
  rw [step?_of_awake h.awake] at hrouter
  simp only [route?] at hrouter
  rw [Pipeline.routing, queue_pipeline]
  cases hr : t.router with
  | none => rfl
  | some r =>
    simp only [hr] at hrouter
    split at hrouter
    · exact absurd hrouter (by simp)
    · rename_i hnil
      exact hnil

theorem Idle.take?_eq_none (h : t.Idle) {p : String} {task : PairTask}
    (hp : t.pair? p = some task) : task.inbox.take? = none := by
  have hpair := h.rests (.pair p)
  rw [step?_of_awake h.awake] at hpair
  simp only [processNext?, hp] at hpair
  split at hpair
  · exact absurd hpair (by simp)
  · split at hpair
    · exact absurd hpair (by simp)
    · assumption

/-- **Where all tasks are idle, no message is left on its way.** -/
theorem Idle.nothing_left (h : t.Idle) (hk : t.pipeline.Kept t₀ ms) (p : String) :
    t.pipeline.received p = [] ∧ t.pipeline.routing = [] ∧ t.pipeline.waiting = [] := by
  obtain ⟨f, hs, hends⟩ := hk.feed
  refine ⟨?_, h.routing_eq_nil, h.waiting_eq_nil hs fun hl => (hends hl).1⟩
  rw [Pipeline.received, serving_pipeline]
  cases htask : t.pair? p with
  | none => rfl
  | some task => exact Pipeline.live_of_take?_eq_none (h.take?_eq_none htask)

/-- Only pairs with a task need to be looked at. -/
theorem idle_iff : t.Idle ↔ t.schedule.timers = [] ∧ t.step? .listener = none ∧
    t.step? .router = none ∧ ∀ e ∈ t.pairs, t.step? (.pair e.1) = none := by
  constructor
  · intro h
    exact ⟨h.awake, h.rests _, h.rests _, fun e _ => h.rests _⟩
  · rintro ⟨hawake, hlistener, hrouter, hpairs⟩
    refine ⟨hawake, fun name => ?_⟩
    cases name with
    | listener => exact hlistener
    | router => exact hrouter
    | pair p =>
      cases htask : t.pair? p with
      | none =>
        rw [step?_of_awake hawake]
        simp only [processNext?, htask]
      | some task =>
        obtain ⟨e, he, heq, -⟩ := Sorted.mem_of_get? htask
        obtain rfl : p = e.1 := Std.LawfulEqCmp.eq_of_compare heq
        exact hpairs e he

instance (t : Tracker) : Decidable t.Idle :=
  decidable_of_iff (t.schedule.timers.isEmpty = true ∧ (t.step? .listener).isNone = true ∧
    (t.step? .router).isNone = true ∧ ∀ e ∈ t.pairs, (t.step? (.pair e.1)).isNone = true)
    (by simp only [idle_iff, List.isEmpty_iff, Option.isNone_iff_eq_none])

end Tracker

end BookFeed
