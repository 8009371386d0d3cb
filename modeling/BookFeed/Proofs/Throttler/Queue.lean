import BookFeed.Proofs.Throttler.Capacity
import Mathlib.Data.List.Perm.Basic

/-!
# A queue is one interleaving

A `Queue` makes the attempts of its requests in one order, at the times they are due. `Mirrors`
says that a `System` has the throttler and the time of a queue, and the requests that wait in it as
calls. An operation of the queue is `Simulated` if a run leads from mirror to mirror and gives the
same admissions.

* `advance_simulated`, `spawn_simulated`, `acquire_simulated`: each operation is a run, by induction
  on what the queue does;
* `Used.covered`: so whatever a queue is used for, its admissions are those of an interleaving;
* **`Used.load_le`**: and they keep every limit in every window.
-/

namespace BookFeed.Throttler

variable {s s' s'' : System} {q : Queue} {c : Call} {others : List Call} {as as' : List Admission}

/-- The requests that wait in a queue, as calls. -/
def Queue.sleeping (q : Queue) : List Call := q.waiting.map fun w => ⟨w.task, w.due, false⟩

/-- The admissions among outcomes. -/
def granted (outcomes : List (Except Halt Admission)) : List Admission :=
  outcomes.filterMap Except.toOption

/-- A run leads from `s` to `s'` and gives the admissions `as`. -/
def Leads (s s' : System) (as : List Admission) : Prop :=
  ∃ es, s.run es = s' ∧ s'.admissions = s.admissions ++ as

/-- `s` has the throttler and the time of `q`, and the calls `others` beside those that wait. -/
structure Mirrors (s : System) (q : Queue) (others : List Call) : Prop where
  throttler : s.throttler = q.throttler
  now : s.now = q.now
  calls : s.calls.Perm (others ++ q.sleeping)

theorem Leads.refl (s : System) : Leads s s [] := ⟨[], rfl, (List.append_nil _).symm⟩

theorem Leads.trans (h : Leads s s' as) (h' : Leads s' s'' as') : Leads s s'' (as ++ as') := by
  obtain ⟨es, rfl, ha⟩ := h
  obtain ⟨es', rfl, ha'⟩ := h'
  refine ⟨es ++ es', List.foldl_append .., ?_⟩
  rw [ha', ha, List.append_assoc]

/-! ## One attempt -/

theorem attemptCleared_eq {t : Throttler} (h : t.stopped = false) (now : Nat) (path : String) :
    t.attemptCleared now path = t.attempt now path := by
  have ht : ({ t with stopped := false } : Throttler) = t := by rw [← h]
  have hs := (attempt_attempted t now path).stopped_eq
  unfold attemptCleared
  rw [ht, ← hs]

/-- A call that is awake looks and makes an attempt. -/
theorem attempt_run {i : Nat} (hi : s.calls[i]? = some c) (hdue : c.due ≤ s.now) :
    ∃ es, s.run es = s.resolve i c (s.throttler.attempt s.now c.request.path) := by
  have hawake : ¬ s.now < c.due := Nat.not_lt.mpr hdue
  cases hs : s.throttler.stopped with
  | true =>
    refine ⟨[.look i], ?_⟩
    have hattempt : s.throttler.attempt s.now c.request.path = (s.throttler, .cancelled) := by
      unfold attempt
      rw [if_pos hs]
    rw [hattempt]
    simp only [System.run, List.foldl_cons, List.foldl_nil, System.step, hi, if_neg hawake, hs,
      if_true]
    rfl
  | false =>
    refine ⟨[.look i, .attempt i], ?_⟩
    have hlen : i < s.calls.length := (List.getElem?_eq_some_iff.mp hi).1
    rw [← attemptCleared_eq hs]
    simp only [System.run, List.foldl_cons, List.foldl_nil, System.step, hi, if_neg hawake, hs,
      Bool.false_eq_true, if_false, List.getElem?_set_self hlen, if_true]
    generalize s.throttler.attemptCleared s.now c.request.path = done
    unfold System.resolve
    simp only [List.eraseIdx_set_eq, List.set_set]

/-! ## What a queue does, a run does -/

/-- Whatever mirrors `q` beside the calls `others`, a run leads it to what mirrors `q'` beside
`others'`, and gives the admissions that `q'` has finished since. -/
def Simulated (q q' : Queue) (others others' : List Call) : Prop :=
  ∀ s, Mirrors s q others → ∃ s' outs, Leads s s' (granted outs) ∧ Mirrors s' q' others' ∧
    q'.finished = q.finished ++ outs

theorem Simulated.trans {q q' q'' : Queue} {others others' others'' : List Call}
    (h : Simulated q q' others others') (h' : Simulated q' q'' others' others'') :
    Simulated q q'' others others'' := by
  intro s hs
  obtain ⟨s', outs, hlead, hs', hfin⟩ := h s hs
  obtain ⟨s'', outs', hlead', hs'', hfin'⟩ := h' s' hs'
  refine ⟨s'', outs ++ outs', ?_, hs'', ?_⟩
  · rw [granted, List.filterMap_append]
    exact hlead.trans hlead'
  · rw [hfin', hfin, List.append_assoc]

/-- What changes no more than the calls and the time gives no admission. -/
theorem simulated_of_quiet {q q' : Queue} {others others' : List Call}
    (hfin : q'.finished = q.finished)
    (h : ∀ s, Mirrors s q others → ∃ s', Leads s s' [] ∧ Mirrors s' q' others') :
    Simulated q q' others others' := by
  intro s hs
  obtain ⟨s', hlead, hs'⟩ := h s hs
  exact ⟨s', [], hlead, hs', hfin.trans (List.append_nil _).symm⟩

theorem pass_simulated {time : Nat} (hle : q.now ≤ time) :
    Simulated q { q with now := time } others others := by
  refine simulated_of_quiet rfl fun s hs => ?_
  refine ⟨_, ⟨[.pass (time - q.now)], rfl, (List.append_nil _).symm⟩, hs.throttler, ?_, hs.calls⟩
  show s.now + (time - q.now) = time
  rw [hs.now]
  omega

/-- The place of a call, and the calls without it. -/
theorem Mirrors.find (h : Mirrors s q (c :: others)) :
    ∃ i, s.calls[i]? = some c ∧ (s.calls.eraseIdx i).Perm (others ++ q.sleeping) := by
  obtain ⟨i, hi⟩ := List.getElem?_of_mem (h.calls.mem_iff.mpr List.mem_cons_self)
  obtain ⟨hlen, hc⟩ := List.getElem?_eq_some_iff.mp hi
  have hperm := List.getElem_cons_eraseIdx_perm hlen
  rw [hc] at hperm
  exact ⟨i, hi, (hperm.trans h.calls).cons_inv⟩

theorem abandon_simulated : Simulated q q (c :: others) others := by
  refine simulated_of_quiet rfl fun s hs => ?_
  obtain ⟨i, -, herase⟩ := hs.find
  exact ⟨_, ⟨[.abandon i], rfl, (List.append_nil _).symm⟩, hs.throttler, hs.now, herase⟩

section Attempt

variable {t : Throttler} {a : Attempt}

/-- A call that is awake makes an attempt and returns. -/
theorem attempt_returns (others : List Call) {outcome : Except Halt Admission}
    (hdue : c.due ≤ q.now)
    (ht : q.throttler.attempt q.now c.request.path = (t, a))
    (ho : a.outcome? q.now c.request = some outcome) :
    Simulated q { q with throttler := t, finished := q.finished ++ [outcome] } (c :: others)
      others := by
  intro s hs
  obtain ⟨i, hi, herase⟩ := hs.find
  obtain ⟨es, hes⟩ := attempt_run hi (hs.now ▸ hdue)
  rw [hs.throttler, hs.now, ht] at hes
  unfold System.resolve at hes
  simp only [hs.now, ho] at hes
  cases outcome with
  | ok admission => exact ⟨_, _, ⟨es, hes, rfl⟩, ⟨rfl, rfl, herase⟩, rfl⟩
  | error e => exact ⟨_, _, ⟨es, hes, (List.append_nil _).symm⟩, ⟨rfl, rfl, herase⟩, rfl⟩

/-- A call that is awake makes an attempt and sleeps on. -/
theorem attempt_sleeps (others : List Call) (hdue : c.due ≤ q.now)
    (ht : q.throttler.attempt q.now c.request.path = (t, a))
    (ho : a.outcome? q.now c.request = none) :
    Simulated q { q with throttler := t } (c :: others)
      (⟨c.request, q.now + t.retry, false⟩ :: others) := by
  refine simulated_of_quiet rfl fun s hs => ?_
  obtain ⟨i, hi, herase⟩ := hs.find
  have hlen := (List.getElem?_eq_some_iff.mp hi).1
  obtain ⟨es, hes⟩ := attempt_run hi (hs.now ▸ hdue)
  rw [hs.throttler, hs.now, ht] at hes
  unfold System.resolve at hes
  simp only [hs.now, ho] at hes
  exact ⟨_, ⟨es, hes, (List.append_nil _).symm⟩, rfl, rfl,
    (List.set_perm_cons_eraseIdx hlen _).trans (herase.cons _)⟩

end Attempt

theorem insert_perm {α : Type} (x : Timer α) (ts : List (Timer α)) :
    (Timer.insert x ts).Perm (x :: ts) := by
  induction ts with
  | nil => exact .refl _
  | cons y ys ih =>
    rw [Timer.insert]
    split
    · exact (ih.cons y).trans (.swap x y ys)
    · exact .refl _

/-- A call that sleeps is put to the requests that wait. -/
theorem sleep_simulated {r : Request} {due : Nat} :
    Simulated q { q with waiting := Timer.insert ⟨due, r⟩ q.waiting } (⟨r, due, false⟩ :: others)
      others := by
  refine simulated_of_quiet rfl fun s hs => ?_
  have hins : (Queue.sleeping { q with waiting := Timer.insert ⟨due, r⟩ q.waiting }).Perm
      (⟨r, due, false⟩ :: q.sleeping) := (insert_perm ⟨due, r⟩ q.waiting).map _
  exact ⟨s, .refl s, hs.throttler, hs.now,
    hs.calls.trans (List.perm_middle.symm.trans (hins.symm.append_left others))⟩

/-- The first of the requests that wait becomes a call of its own. -/
theorem wake_simulated {w : Timer Request} {rest : List (Timer Request)}
    (hw : q.waiting = w :: rest) :
    Simulated q { q with waiting := rest } others (⟨w.task, w.due, false⟩ :: others) := by
  refine simulated_of_quiet rfl fun s hs => ⟨s, .refl s, hs.throttler, hs.now, ?_⟩
  refine hs.calls.trans ?_
  unfold Queue.sleeping
  rw [hw]
  exact List.perm_middle

/-! ## Operations -/

/-- **Letting time pass is a run.** -/
theorem advance_simulated (q : Queue) (target : Nat) (others : List Call) :
    Simulated q (q.advance target) others others := by
  fun_induction Queue.advance q target with
  | case1 q hw => exact pass_simulated (Nat.le_max_left _ _)
  | case2 q w rest hw hdue now t a ht outcome ho ih =>
    have hpass : Simulated { q with waiting := rest } { q with waiting := rest, now }
        (⟨w.task, w.due, false⟩ :: others) (⟨w.task, w.due, false⟩ :: others) :=
      pass_simulated (Nat.le_max_left _ _)
    have hattempt := attempt_returns (q := { q with waiting := rest, now })
      (c := ⟨w.task, w.due, false⟩) others (Nat.le_max_right _ _) ht ho
    exact (wake_simulated hw).trans (hpass.trans (hattempt.trans ih))
  | case3 q w rest hw hdue now t a ht ho ih =>
    have hpass : Simulated { q with waiting := rest } { q with waiting := rest, now }
        (⟨w.task, w.due, false⟩ :: others) (⟨w.task, w.due, false⟩ :: others) :=
      pass_simulated (Nat.le_max_left _ _)
    have hattempt := attempt_sleeps (q := { q with waiting := rest, now })
      (c := ⟨w.task, w.due, false⟩) others (Nat.le_max_right _ _) ht ho
    exact (wake_simulated hw).trans (hpass.trans (hattempt.trans (sleep_simulated.trans ih)))
  | case4 q w rest hw hdue => exact pass_simulated (Nat.le_max_left _ _)

theorem now_advance (q : Queue) (target : Nat) : (q.advance target).now = max q.now target := by
  fun_induction Queue.advance q target with
  | case1 | case4 => rfl
  | case2 q w rest hw hdue now t a ht outcome ho ih =>
    rw [ih]
    show max (max q.now w.due) target = max q.now target
    omega
  | case3 q w rest hw hdue now t a ht ho ih =>
    rw [ih]
    show max (max q.now w.due) target = max q.now target
    omega

theorem reach_simulated {time : Nat} (h : q.now ≤ time) (others : List Call) :
    Simulated q (q.reach time) others others := by
  refine (advance_simulated q (time - 1) others).trans (pass_simulated ?_)
  rw [now_advance]
  omega

section First

variable {path : String} {t : Throttler} {a : Attempt}

/-- A new call on a path with a limit. -/
theorem call_simulated {l : RateLimit} (hl : q.throttler.limit? path = some l) :
    Simulated q q others (⟨⟨path, q.now⟩, q.now, false⟩ :: others) := by
  refine simulated_of_quiet rfl fun s hs => ?_
  refine ⟨{ s with calls := s.calls ++ [⟨⟨path, s.now⟩, s.now, false⟩] },
    ⟨[.call path], ?_, (List.append_nil _).symm⟩, hs.throttler, hs.now, ?_⟩
  · simp only [System.run, List.foldl_cons, List.foldl_nil, System.step, hs.throttler, hl]
  · rw [hs.now]
    exact (List.perm_append_singleton _ _).trans (hs.calls.cons _)

/-- A call on a path without a limit does not sleep. -/
theorem returns_of_unlimited (hl : q.throttler.limit? path = none)
    (ht : q.throttler.attempt q.now path = (t, a)) (r : Request) :
    ∃ outcome, a.outcome? q.now r = some outcome := by
  have hattempted := attempt_attempted q.throttler q.now path
  rw [ht] at hattempted
  cases hattempted with
  | cancelled | unlimited => exact ⟨_, rfl⟩
  | admitted _ hl' | full _ hl' | overflow _ hl' => exact absurd (hl.symm.trans hl') (by simp)

/-- A new call that returns at its first attempt. -/
theorem first_returns (others : List Call) {outcome : Except Halt Admission}
    (ht : q.throttler.attempt q.now path = (t, a))
    (ho : a.outcome? q.now ⟨path, q.now⟩ = some outcome) :
    Simulated q { q with throttler := t, finished := q.finished ++ [outcome] } others others := by
  cases hl : q.throttler.limit? path with
  | some l => exact (call_simulated hl).trans (attempt_returns others (Nat.le_refl _) ht ho)
  | none =>
    intro s hs
    have hattempted := attempt_attempted q.throttler q.now path
    rw [ht] at hattempted
    have hcall : s.run [.call path] = s.step (.call path) := rfl
    simp only [System.step, hs.throttler, hl] at hcall
    cases hattempted with
    | cancelled hstop =>
      obtain rfl := Option.some.inj ho
      rw [hstop, if_pos rfl] at hcall
      exact ⟨s, _, ⟨_, hcall, (List.append_nil _).symm⟩, ⟨hs.throttler, hs.now, hs.calls⟩, rfl⟩
    | unlimited hstop =>
      obtain rfl := Option.some.inj ho
      rw [hstop, if_neg Bool.false_ne_true, hs.now] at hcall
      refine ⟨_, _, ⟨_, hcall, ?_⟩, ⟨rfl, rfl, hs.calls⟩, rfl⟩
      simp only [Nat.sub_self]
      rfl
    | admitted _ hl' | full _ hl' | overflow _ hl' =>
      exact absurd (hl.symm.trans hl') (by simp)

/-- A new call that sleeps after its first attempt. -/
theorem first_sleeps (ht : q.throttler.attempt q.now path = (t, a))
    (ho : a.outcome? q.now ⟨path, q.now⟩ = none) :
    Simulated q { q with throttler := t } others
      (⟨⟨path, q.now⟩, q.now + t.retry, false⟩ :: others) := by
  cases hl : q.throttler.limit? path with
  | some l => exact (call_simulated hl).trans (attempt_sleeps others (Nat.le_refl _) ht ho)
  | none =>
    obtain ⟨outcome, ho'⟩ := returns_of_unlimited hl ht ⟨path, q.now⟩
    exact absurd (ho.symm.trans ho') (by simp)

end First

/-- **Starting a request is a run.** -/
theorem submit_simulated (q : Queue) (path : String) (others : List Call) :
    Simulated q (q.submit ⟨path, q.now⟩) others others := by
  unfold Queue.submit
  cases ht : q.throttler.attempt q.now path with
  | mk t a =>
    simp only
    cases ho : a.outcome? q.now ⟨path, q.now⟩ with
    | some outcome => exact first_returns others ht ho
    | none => exact (first_sleeps ht ho).trans sleep_simulated

theorem spawn_simulated (q : Queue) (path : String) (others : List Call) : ∀ n : Nat,
    Simulated q (q.spawn path n) others others
  | 0 => advance_simulated q q.now others
  | n + 1 => (spawn_simulated q path others n).trans (submit_simulated _ path others)

/-- A queue with one more outcome, if there is one. -/
def Queue.finish (q : Queue) (outcome : Option (Except Halt Admission)) : Queue :=
  { q with finished := q.finished ++ outcome.toList }

/-- A request that has slept is waited for. -/
theorem acquireUntil_simulated (q : Queue) (r : Request) (deadline : Nat) (others : List Call) :
    ∀ due, due ≤ q.now → q.now ≤ deadline →
      Simulated q ((q.acquireUntil r deadline).1.finish (q.acquireUntil r deadline).2)
        (⟨r, due, false⟩ :: others) others := by
  fun_induction Queue.acquireUntil q r deadline with
  | case1 q t a ht q' outcome ho =>
    intro due hdue _
    exact attempt_returns (c := ⟨r, due, false⟩) others hdue ht ho
  | case2 q t a ht q' ho next hle ih =>
    intro due hdue _
    have hattempt := attempt_sleeps (c := ⟨r, due, false⟩) others hdue ht ho
    have hreach : Simulated q' (q'.reach next) (⟨r, next, false⟩ :: others)
        (⟨r, next, false⟩ :: others) := reach_simulated (Nat.le_add_right _ _) _
    exact hattempt.trans (hreach.trans (ih next (Nat.le_refl _) hle))
  | case3 q t a ht q' ho next hle =>
    intro due hdue hnow
    have hattempt := attempt_sleeps (c := ⟨r, due, false⟩) others hdue ht ho
    have hreach : Simulated q' (q'.reach deadline) (⟨r, next, false⟩ :: others)
        (⟨r, next, false⟩ :: others) := reach_simulated (q := q') hnow _
    have hend : Simulated (q'.reach deadline) ((q'.reach deadline).finish none)
        (⟨r, next, false⟩ :: others) others := by
      rw [Queue.finish, Option.toList_none, List.append_nil]
      exact abandon_simulated
    exact hattempt.trans (hreach.trans hend)

/-- **Waiting for admission is a run.** -/
theorem acquire_simulated (q : Queue) (path : String) (maxWait : Nat) (others : List Call) :
    Simulated q ((q.acquire path maxWait).1.finish (q.acquire path maxWait).2) others others := by
  unfold Queue.acquire
  cases hl : q.throttler.limit? path with
  | some l =>
    exact (call_simulated hl).trans
      (acquireUntil_simulated q _ _ others q.now (Nat.le_refl _) (Nat.le_add_right _ _))
  | none =>
    cases ht : q.throttler.attempt q.now path with
    | mk t a =>
      obtain ⟨outcome, ho⟩ := returns_of_unlimited hl ht ⟨path, q.now⟩
      have hreturns := first_returns others ht ho
      unfold Queue.acquireUntil
      simp only [ht, ho]
      exact hreturns

/-! ## Queues in use -/

/-- A queue that has been used, and the admissions it has handed out. -/
inductive Used (t₀ : Throttler) : Queue → List Admission → Prop where
  | new : Used t₀ { throttler := t₀ } []
  | spawn {q : Queue} {given : List Admission} (path : String) (n : Nat) (h : Used t₀ q given) :
      Used t₀ (q.spawn path n) given
  | advance {q : Queue} {given : List Admission} (target : Nat) (h : Used t₀ q given) :
      Used t₀ (q.advance target) given
  | acquire {q : Queue} {given : List Admission} (path : String) (maxWait : Nat)
      (h : Used t₀ q given) :
      Used t₀ (q.acquire path maxWait).1 (given ++ granted (q.acquire path maxWait).2.toList)
  | collect {q : Queue} {given : List Admission} (h : Used t₀ q given) :
      Used t₀ q.collect.1 (given ++ granted q.collect.2)
  | stop {q : Queue} {given : List Admission} (h : Used t₀ q given) :
      Used t₀ { q with throttler := q.throttler.stop } given

/-- The admissions that a queue has given, whether collected or not, are those of a run. -/
def Covered (t₀ : Throttler) (q : Queue) (given : List Admission) : Prop :=
  ∃ es, Mirrors ((System.start t₀).run es) q [] ∧
    ((System.start t₀).run es).admissions.Perm (given ++ granted q.finished)

theorem Covered.simulated {t₀ : Throttler} {q' : Queue} {given : List Admission}
    (h : Covered t₀ q given) (hsim : Simulated q q' [] []) : Covered t₀ q' given := by
  obtain ⟨es, hs, hgiven⟩ := h
  obtain ⟨s', outs, ⟨es', rfl, hadmissions⟩, hs', hfin⟩ := hsim _ hs
  refine ⟨es ++ es', ?_, ?_⟩
  · rw [System.run, List.foldl_append]
    exact hs'
  · rw [System.run, List.foldl_append, hfin, granted, List.filterMap_append, ← List.append_assoc]
    exact hadmissions ▸ hgiven.append_right _

/-- **Every queue in use is covered by a run.** -/
theorem Used.covered {t₀ : Throttler} {given : List Admission} (h : Used t₀ q given) :
    Covered t₀ q given := by
  induction h with
  | new => exact ⟨[], ⟨rfl, rfl, .refl _⟩, .refl _⟩
  | spawn path n _ ih => exact ih.simulated (spawn_simulated _ path [] n)
  | advance target _ ih => exact ih.simulated (advance_simulated _ target [])
  | @acquire q given path maxWait _ ih =>
    obtain ⟨es, hs, hgiven⟩ := ih.simulated (acquire_simulated _ path maxWait [])
    refine ⟨es, ⟨hs.throttler, hs.now, hs.calls⟩, hgiven.trans ?_⟩
    rw [Queue.finish, granted, List.filterMap_append, List.append_assoc]
    exact List.perm_append_comm.append_left given
  | collect _ ih =>
    obtain ⟨es, hs, hgiven⟩ := ih
    exact ⟨es, ⟨hs.throttler, hs.now, hs.calls⟩, by simpa [granted, Queue.collect] using hgiven⟩
  | stop _ ih =>
    obtain ⟨es, hs, hgiven⟩ := ih
    refine ⟨es ++ [.stop], ?_, ?_⟩
    · rw [run_concat]
      exact ⟨congrArg Throttler.stop hs.throttler, hs.now, hs.calls⟩
    · rw [run_concat]
      exact hgiven

theorem load_perm {t₀ : Throttler} {limit : RateLimit} (h : as.Perm as') (time : Nat) :
    t₀.load as limit time = t₀.load as' limit time :=
  ((h.filter _).map _).sum_nat

/-- **Queues keep every limit in every window**, whatever they are used for. -/
theorem Used.load_le {t₀ : Throttler} {given : List Admission} (hc : Configured t₀.limits)
    (hs : SimplyLinked t₀.limits) (hlog : t₀.log = []) (h : Used t₀ q given) {limit : RateLimit}
    (hlimit : limit ∈ t₀.limits) (time : Nat) :
    t₀.load (given ++ granted q.finished) limit time ≤ limit.limit.toNat := by
  obtain ⟨es, -, hgiven⟩ := h.covered
  rw [← load_perm hgiven]
  exact (run_kept hc hs hlog es).bounded limit hlimit time

end BookFeed.Throttler
