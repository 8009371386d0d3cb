import BookFeed.Proofs.Tracker.Accounts
import BookFeed.Proofs.Tracker.Tracking

/-!
# Messages on their way from call to call

A call that hands a message over has it in its hands until it puts it into an inbox or gives it up.
`System.Passed` says what a call may do to the messages and to what is counted of them, and
`System.Orderly` is what keeps the calls from losing any: the task that a call has found is still
there, and only tracked pairs have tasks.

* `Orderly.passed`, `Orderly.passed_holder`, `Passed.takeUp`: calls, and turns of the router, lose
  and double no message;
* `Orderly.resume`, `Orderly.resumeHolder`, `Orderly.takeUp`: and they leave order behind them.
-/

namespace BookFeed

namespace Tracker

/-- The call hands on a message. The task that it has found is there. -/
def Call.Founded (t : Tracker) : Call → Prop
  | .check _ | .find _ _ | .enter _ _ => True
  | .hand m _ h => (t.pair? m.pair).map (·.handle) = some h
  | .replace _ | .untrack _ => False

/-- The call that has the lock looks for the task of a message. -/
def Holder.IsSearch : Holder → Prop
  | .recheck _ _ | .register _ _ | .spawn _ _ _ => True
  | .abort _ _ | .remove _ _ => False

theorem Call.Founded.mono {t t' : Tracker} {c : Call} (hc : c.Founded t)
    (ht : ∀ p b, (t.pair? p).map (·.handle) = some b → (t'.pair? p).map (·.handle) = some b) :
    c.Founded t' := by
  cases c with
  | check | find | enter => trivial
  | hand m sender b => exact ht _ _ hc
  | replace | untrack => exact hc

theorem handle_of_tasks {t t' : Tracker} (ht : t'.tasks = t.tasks) (p : String) :
    (t'.pair? p).map (·.handle) = (t.pair? p).map (·.handle) := by
  rw [← get?_tasks, ← get?_tasks, ht]

/-! ## What a call does to the pipeline -/

section

variable {t : Tracker} {m : Message} {p : String} {task : PairTask}

@[simp] theorem pipeline_tally (accepted : Bool) : (t.tally accepted).pipeline = t.pipeline := by
  unfold tally
  cases hr : t.router with
  | none => rfl
  | some r =>
    have hqueue : t.pipeline.queue = some r.queue := by rw [queue_pipeline, hr]; rfl
    have hsame : { t.pipeline with queue := some r.queue } = t.pipeline := by rw [← hqueue]
    cases accepted <;> simp [hsame]

theorem pipeline_handTo (sender : Sender) (hp : t.pair? m.pair = some task) :
    (t.handTo m sender task.handle).pipeline = t.pipeline.serve m.pair
      { task.serving with inbox := sender.put t.settings.backlog task.inbox m } := by
  simp only [handTo, hp, if_true, pipeline_wake, pipeline_setPair]
  rfl

theorem trades_handTo (sender : Sender) (h : Handle) :
    (t.handTo m sender h).trades = t.trades := by
  unfold handTo
  split
  · rfl
  · split <;> rfl

theorem handle_attach_self {b : Handle} :
    ((t.attach p b).1.pair? p).map (·.handle) = some (t.attach p b).2 := by
  unfold attach
  cases hp : t.pair? p with
  | some task => simp [hp]
  | none =>
    show (Sorted.get? compare p (Sorted.insert compare p _ t.pairs)).map _ = _
    rw [Sorted.get?_insert_self]
    rfl

/-- Spawning a task leaves the tasks that there are. -/
theorem handle_attach {b b' : Handle} {q : String}
    (h : (t.pair? q).map (·.handle) = some b') :
    ((t.attach p b).1.pair? q).map (·.handle) = some b' := by
  unfold attach
  cases hp : t.pair? p with
  | some task => exact h
  | none =>
    have hq : q ≠ p := fun hq => by
      rw [hq, hp] at h
      exact absurd h (by simp)
    show (Sorted.get? compare q (Sorted.insert compare p _ t.pairs)).map _ = _
    rw [Sorted.get?_insert_of_ne hq]
    exact h

/-- A new task has done nothing yet. -/
theorem pipeline_attach (h : Handle) : (t.attach p h).1.pipeline = t.pipeline ∨
    t.pipeline.serving p = none ∧ ∃ book, (t.attach p h).1.pipeline = t.pipeline.serve p
      { handle := h, synchronizer := .new p t.settings.window book } := by
  unfold attach
  cases hp : t.pair? p with
  | some task => exact .inl rfl
  | none =>
    refine .inr ⟨congrArg (Option.map PairTask.serving) hp,
      (t.registry.read? h).getD (.empty p), ?_⟩
    simp only [pipeline_wake, pipeline_setPair]
    rfl

end

namespace System

/-- What holds between any two events while nobody replaces the tracked pairs. -/
structure Orderly (t₀ : Tracker) (s : System) : Prop where
  inv : s.Inv
  steady : Steady t₀ s.tracker
  calls : ∀ c ∈ s.calls, c.Founded s.tracker
  holder : ∀ h, s.holder = some h → h.IsSearch

variable {t₀ t : Tracker} {s s' : System} {c : Call} {h : Holder} {m : Message} {sender : Sender}
  {i : Nat} {next : List Call} {p : String}

/-! ## Order -/

theorem Orderly.not_due (ho : s.Orderly t₀) : ¬ s.Due p := by
  rintro (⟨h, hh, hp⟩ | ⟨c, hc, hp⟩)
  · have hsearch := ho.holder h hh
    cases h with
    | recheck | register | spawn => exact absurd hp List.not_mem_nil
    | abort | remove => exact hsearch
  · have hfounded := ho.calls c hc
    cases c with
    | check | find | enter | hand => exact absurd hp List.not_mem_nil
    | replace | untrack => exact hfounded

/-- **Only tracked pairs have tasks.** -/
theorem Orderly.tracked (ho : s.Orderly t₀) (hp : s.tracker.pipeline.serving p ≠ none) :
    s.tracker.pipeline.tracked.contains p = true := by
  obtain ⟨k, hk⟩ := Option.ne_none_iff_exists'.mp hp
  obtain ⟨task, htask, -⟩ := Option.map_eq_some_iff.mp hk
  have hmem : Sorted.get? compare p s.tracker.tasks = some task.handle := by
    rw [get?_tasks, htask]
    rfl
  have hbook : Sorted.get? compare p s.tracker.registry.entries = some task.handle := by
    cases hh : s.holder with
    | none => rwa [← ho.inv.tasks_eq hh]
    | some h =>
      have ha := ho.inv.apart hh
      have hsearch := ho.holder h hh
      cases h with
      | recheck | register => rwa [show s.tracker.tasks = _ from ha] at hmem
      | spawn m =>
        rcases ha.2 with hsame | herased
        · rwa [hsame] at hmem
        · rw [herased, Sorted.get?_erase ho.inv.strict] at hmem
          split at hmem
          · exact absurd hmem (by simp)
          · exact hmem
      | abort | remove => exact absurd hsearch id
  refine (ho.inv.wanted p ?_).resolve_right ho.not_due
  rw [Registry.contains, Registry.view?, hbook]
  rfl

/-! ## The accounts -/

/-- How many messages were not handed on because nobody tracks their pairs. -/
def untracked (s : System) : Nat :=
  s.tracker.counters.get (.rejected s.tracker.exchange .untracked)

/-- The messages that are in the tracker, those included that the router hands on just now. -/
def inTransit (s : System) : Nat := s.tracker.pipeline.inside + s.underWay

/-- What a call does to the accounts when it goes on and `dropped` are dropped. -/
structure Passed (s s' : System) (dropped : List Message) : Prop where
  total : s'.saved + s.untracked + s.inTransit =
    s.saved + s'.untracked + s'.inTransit + dropped.length
  untracked : s.untracked ≤ s'.untracked
  counters : ∀ c, c ≠ .rejected s.tracker.exchange .untracked →
    s'.tracker.counters.get c = s.tracker.counters.get c
  exchange : s'.tracker.exchange = s.tracker.exchange
  advisories : s'.tracker.advisories.sent = s.tracker.advisories.sent
  trades : s'.tracker.trades = s.tracker.trades

theorem Passed.quiet {dropped : List Message} (hr : s'.tracker.records = s.tracker.records)
    (ht : s'.tracker.trades = s.tracker.trades) (ha : s'.saved = s.saved)
    (hi : s.inTransit = s'.inTransit + dropped.length) : Passed s s' dropped := by
  have hx : s'.tracker.exchange = s.tracker.exchange := congrArg Records.exchange hr
  have hc : s'.tracker.counters = s.tracker.counters := congrArg Records.counters hr
  have hu : s'.untracked = s.untracked := by rw [System.untracked, System.untracked, hx, hc]
  refine ⟨by omega, hu.ge, fun c _ => by rw [hc], hx, congrArg Records.advisories hr, ht⟩

theorem inTransit_answer (m : Message) (sender : Sender) (accepted : Bool) :
    (s.answer m sender accepted).inTransit = s.inTransit := by
  have htally (t : Tracker) (a : Bool) : (t.tally a).pipeline.inside = t.pipeline.inside := by
    rw [pipeline_tally]
  cases sender <;> cases accepted
  · exact congrArg (· + s.underWay) (htally _ false)
  · exact congrArg (· + s.underWay) (htally _ true)
  · rfl
  · rfl

/-- A message of the router that belongs to no tracked pair is counted as such. -/
theorem Passed.turned_away {dropped : List Message}
    (hr : s'.tracker.records = s.tracker.records) (ht : s'.tracker.trades = s.tracker.trades)
    (ha : s'.saved = s.saved) (hi : s.inTransit = s'.inTransit + 1 + dropped.length) :
    Passed s (s'.answer m .router false) dropped := by
  have hx : s'.tracker.exchange = s.tracker.exchange := congrArg Records.exchange hr
  have hc : s'.tracker.counters = s.tracker.counters := congrArg Records.counters hr
  have hrecords : (s'.answer m .router false).tracker.records =
      { s'.tracker.records with
        counters := s'.tracker.counters.increment (.rejected s'.tracker.exchange .untracked) } :=
    records_tally false
  have hx' : (s'.answer m .router false).tracker.exchange = s'.tracker.exchange :=
    congrArg Records.exchange hrecords
  have hc' : (s'.answer m .router false).tracker.counters =
      s'.tracker.counters.increment (.rejected s'.tracker.exchange .untracked) :=
    congrArg Records.counters hrecords
  have hu : (s'.answer m .router false).untracked = s.untracked + 1 := by
    rw [System.untracked, hx', hc', Counters.get_increment, if_pos rfl, hx, hc]
    rfl
  have hsaved : (s'.answer m .router false).saved = s.saved := ha
  refine ⟨?_, hu.ge.trans' (Nat.le_succ _), fun c hne => ?_, hx'.trans hx, ?_, ?_⟩
  · have hanswer := inTransit_answer (s := s') m .router false
    omega
  · rw [hc', Counters.get_increment, if_neg (hx ▸ hne), hc]
    rfl
  · exact (congrArg Records.advisories hrecords).trans (congrArg Records.advisories hr)
  · exact (congrArg Pipeline.trades (pipeline_tally false)).trans ht

theorem saved_concat (a : Except Error Unit) :
    ({ s with answers := s.answers ++ [a] } : System).saved =
      s.saved + if a.isOk then 1 else 0 := by
  rw [saved, List.countP_append, List.countP_singleton]
  rfl

/-- Who has saved a message is told so. -/
theorem Passed.confirmed {dropped : List Message}
    (hr : s'.tracker.records = s.tracker.records) (ht : s'.tracker.trades = s.tracker.trades)
    (ha : s'.saved = s.saved) (hi : s.inTransit + 1 = s'.inTransit + dropped.length) :
    Passed s (s'.answer m .saver true) dropped := by
  have hx : s'.tracker.exchange = s.tracker.exchange := congrArg Records.exchange hr
  have hc : s'.tracker.counters = s.tracker.counters := congrArg Records.counters hr
  have hsaved : (s'.answer m .saver true).saved = s.saved + 1 :=
    (saved_concat _).trans (congrArg (· + 1) ha)
  have hu : (s'.answer m .saver true).untracked = s.untracked := by
    show s'.tracker.counters.get (.rejected s'.tracker.exchange .untracked) = _
    rw [hc, hx]
    rfl
  refine ⟨?_, hu.ge, fun c _ => congrArg (·.get c) hc, hx, congrArg Records.advisories hr, ht⟩
  have hanswer := inTransit_answer (s := s') m .saver true
  omega

/-- **Who hands a message over is told once what became of it.** -/
theorem Passed.answer {dropped : List Message} (accepted : Bool)
    (hr : s'.tracker.records = s.tracker.records) (ht : s'.tracker.trades = s.tracker.trades)
    (ha : s'.saved = s.saved)
    (hi : s.inTransit + (if sender = .saver ∧ accepted = true then 1 else 0) =
      s'.inTransit + (if sender = .router ∧ accepted = false then 1 else 0) + dropped.length) :
    Passed s (s'.answer m sender accepted) dropped := by
  have hanswer := inTransit_answer (s := s') m sender accepted
  cases sender with
  | router =>
    cases accepted with
    | true =>
      refine .quiet ?_ ?_ ha ?_
      · exact (records_tally true).trans hr
      · exact (congrArg Pipeline.trades (pipeline_tally true)).trans ht
      · rw [hanswer]
        simpa using hi
    | false => exact .turned_away hr ht ha (by simpa using hi)
  | saver =>
    cases accepted with
    | true => exact .confirmed hr ht ha (by simpa using hi)
    | false =>
      refine .quiet hr ht ((saved_concat _).trans ha) ?_
      rw [hanswer]
      simpa using hi

/-! ## Calls that do not have the lock -/

theorem countP_turn (f : Call → Bool) (next : List Call) (hc : s.calls[i]? = some c) :
    (s.turn i next).calls.countP f + (f c).toNat = s.calls.countP f + next.countP f := by
  obtain ⟨hlt, rfl⟩ := List.getElem?_eq_some_iff.mp hc
  have hperm := (List.getElem_cons_eraseIdx_perm hlt).countP_eq f
  rw [List.countP_cons] at hperm
  have hcalls : (s.turn i next).calls.countP f =
      (s.calls.eraseIdx i).countP f + next.countP f := List.countP_append
  rw [hcalls, ← hperm]
  cases f s.calls[i] with
  | false => rfl
  | true =>
    simp only [Bool.toNat_true, if_true]
    omega

theorem underWay_turn (next : List Call) (hc : s.calls[i]? = some c) :
    (s.turn i next).underWay + c.isRouted.toNat = s.underWay + next.countP (·.isRouted) := by
  have hcount := countP_turn (·.isRouted) next hc
  have hholder : (s.turn i next).holder = s.holder := rfl
  rw [underWay, underWay, hholder]
  omega

/-- One call stands in the place of another. -/
theorem Passed.turn {c' : Call} (hc : s.calls[i]? = some c) (hr : c'.isRouted = c.isRouted)
    (hd : s.drops i = []) : Passed s (s.turn i [c']) (s.drops i) := by
  have hunder := underWay_turn [c'] hc
  rw [List.countP_singleton, hr] at hunder
  refine .quiet rfl rfl rfl ?_
  rw [hd]
  show s.tracker.pipeline.inside + s.underWay =
    s.tracker.pipeline.inside + (s.turn i [c']).underWay + 0
  cases hrouted : c.isRouted <;> simp [hrouted] at hunder <;> omega

/-- A call that takes the lock stays what it is. -/
theorem Passed.lock (hc : s.calls[i]? = some c) (hr : h.isRouted = c.isRouted)
    (hd : s.drops i = []) : Passed s (s.lock i h) (s.drops i) := by
  unfold System.lock
  split
  · exact .quiet rfl rfl rfl (by rw [hd]; rfl)
  · rename_i hfree
    have hunder := underWay_turn [] hc
    refine .quiet rfl rfl rfl ?_
    rw [hd]
    show s.tracker.pipeline.inside + s.underWay = s.tracker.pipeline.inside +
      ((s.turn i []).calls.countP (·.isRouted) + (h.isRouted).toNat) + 0
    have hturn : (s.turn i []).underWay = (s.turn i []).calls.countP (·.isRouted) := by
      rw [underWay, System.turn, hfree]
      rfl
    rw [hr]
    simp only [List.countP_nil] at hunder
    omega

/-- **A call that hands its message over puts it into the inbox of the pair.** -/
theorem Passed.hand {b : Handle} (ho : s.Orderly t₀) (hc : s.calls[i]? = some (.hand m sender b)) :
    Passed s (s.resume i (.hand m sender b)) (s.drops i) := by
  have hfounded : (Call.hand m sender b).Founded s.tracker := ho.calls _ (List.mem_of_getElem? hc)
  obtain ⟨task, hp, rfl⟩ := Option.map_eq_some_iff.mp hfounded
  have hserving : s.tracker.pipeline.serving m.pair = some task.serving := by
    rw [serving_pipeline, hp]
    rfl
  have hdrops : s.drops i = sender.drops s.tracker.settings.backlog task.inbox := by
    simp only [drops, hc, hp, if_true]
  have hsize := sender.size_put s.tracker.settings.backlog task.inbox m
  have hinside := Pipeline.inside_serve
    (k := { task.serving with inbox := sender.put s.tracker.settings.backlog task.inbox m })
    (ho.tracked (p := m.pair) (by simp [hserving]))
  rw [← pipeline_handTo sender hp, hserving, Option.elim_some] at hinside
  have hunder := underWay_turn [] hc
  refine .answer true (records_handTo _ _) (trades_handTo _ _) rfl ?_
  rw [hdrops]
  show s.tracker.pipeline.inside + s.underWay + _ =
    (s.tracker.handTo m sender task.handle).pipeline.inside + (s.turn i []).underWay + _ + _
  have hinbox : task.serving.inbox = task.inbox := rfl
  cases sender <;> simp [Call.isRouted, hinbox] at hunder hinside hsize ⊢ <;> omega

/-- **A call that goes on leaves the accounts in order.** -/
theorem Orderly.passed (ho : s.Orderly t₀) (hc : s.calls[i]? = some c) :
    Passed s (s.resume i c) (s.drops i) := by
  cases c with
  | check m =>
    have hd : s.drops i = [] := by simp only [drops, hc]
    simp only [System.resume]
    split
    · exact .turn hc rfl hd
    · have hunder := underWay_turn [] hc
      refine .answer false rfl rfl rfl ?_
      rw [hd]
      show s.tracker.pipeline.inside + s.underWay + _ =
        s.tracker.pipeline.inside + (s.turn i []).underWay + _ + _
      simp [Call.isRouted] at hunder ⊢
      omega
  | find m sender =>
    have hd : s.drops i = [] := by simp only [drops, hc]
    simp only [System.resume]
    split
    · exact .turn hc rfl hd
    · exact .turn hc rfl hd
  | enter m sender =>
    have hd : s.drops i = [] := by simp only [drops, hc]
    exact .lock hc rfl hd
  | hand m sender b => exact .hand ho hc
  | replace pairs | untrack pairs => exact absurd (ho.calls _ (List.mem_of_getElem? hc)) id

/-! ## The call that has the lock -/

/-- Only a tracked pair gets a task, which has received nothing. -/
theorem inside_attach {b : Handle} (ho : s.Orderly t₀) (hh : s.holder = some (.spawn m sender b)) :
    (s.tracker.attach m.pair b).1.pipeline.inside = s.tracker.pipeline.inside := by
  have ha : Sorted.get? compare m.pair s.tracker.registry.entries = some b := (ho.inv.apart hh).1
  have ht : s.tracker.pipeline.tracked.contains m.pair = true := by
    refine (ho.inv.wanted m.pair ?_).resolve_right ho.not_due
    rw [Registry.contains, Registry.view?, ha]
    rfl
  rcases pipeline_attach (t := s.tracker) (p := m.pair) b with hsame | ⟨hnone, book, hserve⟩
  · rw [hsame]
  · have hinside := Pipeline.inside_serve
      (k := { handle := b, synchronizer := .new m.pair s.tracker.settings.window book }) ht
    rw [hserve]
    rw [hnone] at hinside
    exact hinside

/-- **So does the call that has the lock.** -/
theorem Orderly.passed_holder (ho : s.Orderly t₀) (hh : s.holder = some h) :
    Passed s (s.resumeHolder h) [] := by
  have hunder : s.underWay = s.calls.countP (·.isRouted) + h.isRouted.toNat := by
    rw [underWay, hh]
    rfl
  cases h with
  | recheck m sender =>
    simp only [System.resumeHolder]
    split
    · refine .quiet rfl rfl rfl ?_
      show s.tracker.pipeline.inside + s.underWay = _
      rw [hunder]
      rfl
    · refine .answer false rfl rfl rfl ?_
      show s.tracker.pipeline.inside + s.underWay + _ =
        s.tracker.pipeline.inside + (s.calls.countP (·.isRouted) + 0) + _ + 0
      cases sender <;> simp [Holder.isRouted] at hunder ⊢ <;> omega
  | register m sender =>
    refine .quiet rfl rfl rfl ?_
    show s.tracker.pipeline.inside + s.underWay = _
    rw [hunder]
    rfl
  | spawn m sender b =>
    have hinside := inside_attach ho hh
    have hrecords := records_attach (t := s.tracker) (p := m.pair) b
    have htrades : (s.tracker.attach m.pair b).1.trades = s.tracker.trades := by
      unfold attach
      split <;> rfl
    simp only [System.resumeHolder]
    generalize s.tracker.attach m.pair b = attached at hinside hrecords htrades ⊢
    obtain ⟨t, b'⟩ := attached
    refine .quiet hrecords htrades rfl ?_
    show s.tracker.pipeline.inside + s.underWay = t.pipeline.inside +
      ((s.calls ++ [Call.hand m sender b']).countP (·.isRouted) + 0) + 0
    have hrouted : (Call.hand m sender b').isRouted = (Holder.spawn m sender b).isRouted := rfl
    rw [hinside, hunder, List.countP_append, List.countP_singleton, hrouted]
    cases (Holder.spawn m sender b).isRouted <;> rfl
  | abort p others | remove p others => exact absurd (ho.holder _ hh) id

/-! ## Calls leave order -/

/-- Calls leave order where tasks stay and what is new is in order. -/
theorem Orderly.of_calls (ho : s.Orderly t₀) (hi : s'.Inv) (hs : Steady t₀ s'.tracker)
    (ht : ∀ p b, (s.tracker.pair? p).map (·.handle) = some b →
      (s'.tracker.pair? p).map (·.handle) = some b)
    (hc : ∀ c ∈ s'.calls, c ∈ s.calls ∨ c.Founded s'.tracker)
    (hh : ∀ h, s'.holder = some h → h.IsSearch) : s'.Orderly t₀ :=
  ⟨hi, hs, fun c hmem => (hc c hmem).elim (fun hold => (ho.calls c hold).mono ht) id, hh⟩

theorem Orderly.quiet (ho : s.Orderly t₀) (hi : ({ s with tracker := t } : System).Inv)
    (hs : Steady t₀ t) (ht : t.tasks = s.tracker.tasks) :
    ({ s with tracker := t } : System).Orderly t₀ :=
  ho.of_calls hi hs (fun p _ hb => (handle_of_tasks ht p).trans hb) (fun _ hc => .inl hc) ho.holder

theorem Orderly.turn (ho : s.Orderly t₀) (hi : (s.turn i next).Inv)
    (hnext : ∀ c ∈ next, c.Founded s.tracker) : (s.turn i next).Orderly t₀ := by
  refine ho.of_calls hi ho.steady (fun _ _ hb => hb) (fun c hc => ?_) ho.holder
  exact (List.mem_append.mp hc).imp List.mem_of_mem_eraseIdx (hnext c)

theorem Orderly.lock (ho : s.Orderly t₀) (hi : (s.lock i h).Inv) (hh : h.IsSearch) :
    (s.lock i h).Orderly t₀ := by
  unfold System.lock at hi ⊢
  split
  · exact ho
  · refine ho.of_calls (by simpa only [*] using hi) ho.steady (fun _ _ hb => hb) (fun c hc => ?_) ?_
    · exact .inl (List.mem_of_mem_eraseIdx (by simpa [System.turn] using hc))
    · intro h' hh'
      obtain rfl := Option.some.inj hh'
      exact hh

theorem Orderly.answer (ho : s.Orderly t₀) (accepted : Bool) :
    (s.answer m sender accepted).Orderly t₀ := by
  have hi : (s.answer m sender accepted).Inv := ho.inv.answer accepted
  have htally (t : Tracker) (a : Bool) : (t.tally a).tasks = t.tasks :=
    congrArg Shelf.tasks (shelf_tally a)
  have hframe (t : Tracker) (a : Bool) : ∃ serving registry trades, (t.tally a).pipeline =
      { t.pipeline with serving, registry, trades } := ⟨_, _, _, pipeline_tally a⟩
  cases sender with
  | router =>
    cases accepted with
    | true =>
      refine ho.quiet hi (ho.steady.of_frame ?_ (hframe _ _)) (htally _ _)
      exact congrArg Records.exchange (records_tally true)
    | false =>
      refine ho.quiet hi (ho.steady.of_frame ?_ (hframe _ _)) (htally _ _)
      exact (congrArg Records.exchange (records_tally false)).trans rfl
  | saver =>
    cases accepted with
    | true => exact ⟨hi, ho.steady, ho.calls, ho.holder⟩
    | false => exact ⟨hi, ho.steady, ho.calls, ho.holder⟩

theorem Orderly.resume (ho : s.Orderly t₀) (hc : s.calls[i]? = some c) :
    (s.resume i c).Orderly t₀ := by
  have hi := ho.inv.resume hc
  have hended : (s.turn i []).Inv → (s.turn i []).Orderly t₀ := fun hi => ho.turn hi (by simp)
  cases c with
  | check m =>
    simp only [System.resume] at hi ⊢
    split
    · rename_i ht
      rw [if_pos ht] at hi
      exact ho.turn hi (by simp [Call.Founded])
    · exact (hended (ho.inv.turn hc (by simp [Call.owed]))).answer false
  | find m sender =>
    simp only [System.resume] at hi ⊢
    split
    · rename_i task hp
      rw [hp] at hi
      exact ho.turn hi (by simp [Call.Founded, hp])
    · rename_i hp
      rw [hp] at hi
      exact ho.turn hi (by simp [Call.Founded])
  | enter m sender => exact ho.lock hi trivial
  | hand m sender b =>
    have hended := hended (ho.inv.turn hc (by simp [Call.owed]))
    have hshelf : (s.tracker.handTo m sender b).shelf = s.tracker.shelf :=
      shelf_handTo ho.inv.strict_tasks
    obtain ⟨task, hp, rfl⟩ := Option.map_eq_some_iff.mp (ho.calls _ (List.mem_of_getElem? hc))
    refine (hended.quiet (hended.inv.quiet hshelf) ?_ (congrArg Shelf.tasks hshelf)).answer true
    refine ho.steady.of_frame (congrArg Records.exchange (records_handTo _ _)) ?_
    exact ⟨_, _, _, pipeline_handTo sender hp⟩
  | replace pairs | untrack pairs => exact absurd (ho.calls _ (List.mem_of_getElem? hc)) id

theorem Orderly.resumeHolder (ho : s.Orderly t₀) (hh : s.holder = some h) :
    (s.resumeHolder h).Orderly t₀ := by
  have hi := ho.inv.resumeHolder hh
  cases h with
  | recheck m sender =>
    simp only [System.resumeHolder] at hi ⊢
    split
    · rename_i ht
      rw [if_pos ht] at hi
      refine ho.of_calls hi ho.steady (fun _ _ hb => hb) (fun _ hc => .inl hc) fun h' hh' => ?_
      obtain rfl := Option.some.inj hh'
      trivial
    · have hreleased : ({ s with holder := none } : System).Orderly t₀ :=
        ⟨ho.inv.release hh, ho.steady, ho.calls, fun h' hh' => absurd hh' (by simp)⟩
      exact hreleased.answer false
  | register m sender =>
    refine ho.of_calls hi (ho.steady.of_frame rfl ⟨_, _, _, rfl⟩) (fun _ _ hb => hb)
      (fun _ hc => .inl hc) fun h' hh' => ?_
    obtain rfl := Option.some.inj hh'
    trivial
  | spawn m sender b =>
    refine ho.of_calls hi ?_ (fun p b' => handle_attach) (fun c hc => ?_)
      fun h' hh' => absurd hh' (by simp [System.resumeHolder])
    · refine ho.steady.of_frame (congrArg Records.exchange (records_attach b)) ?_
      rcases pipeline_attach (t := s.tracker) (p := m.pair) b with hsame | ⟨-, book, hserve⟩
      · exact ⟨_, _, _, hsame⟩
      · exact ⟨_, _, _, hserve⟩
    · refine (List.mem_append.mp hc).imp_right fun hc => ?_
      obtain rfl := List.mem_singleton.mp hc
      exact handle_attach_self
  | abort p others | remove p others => exact absurd (ho.holder _ hh) id

/-! ## The router -/

/-- What the router can do in a turn. -/
theorem takeUp_cases (s : System) : s.takeUp = s ∨
    (∃ r m queue, s.tracker.router = some r ∧ r.queue = m :: queue ∧
      s.takeUp = { s with
        tracker := { s.tracker with router := some { r with queue } }
        calls := s.calls ++ [.check m] }) ∨
    (∃ r, s.tracker.router = some r ∧ r.queue = [] ∧ s.tracker.listening = false ∧
      s.takeUp = { s with tracker := { s.tracker with router := none } }) := by
  unfold takeUp
  split
  · exact .inl rfl
  · cases hr : s.tracker.router with
    | none => exact .inl rfl
    | some r =>
      cases hq : r.queue with
      | cons m queue =>
        refine .inr (.inl ⟨r, m, queue, rfl, hq, ?_⟩)
        simp only [hq]
        rfl
      | nil =>
        simp only [route?, hr, hq]
        cases hl : s.tracker.listening with
        | true => exact .inl rfl
        | false => exact .inr (.inr ⟨r, rfl, hq, rfl, rfl⟩)

/-- **A message that the router takes from its queue is under way.** -/
theorem Passed.takeUp (s : System) : Passed s s.takeUp [] := by
  rcases takeUp_cases s with hs | ⟨r, m, queue, hr, hq, hs⟩ | ⟨r, hr, hq, -, hs⟩
  · rw [hs]
    exact .quiet rfl rfl rfl rfl
  · have hrouting : s.tracker.pipeline.routing = m :: queue := by
      rw [Pipeline.routing, queue_pipeline, hr]
      exact hq
    rw [hs]
    refine .quiet rfl rfl rfl ?_
    show s.tracker.pipeline.waiting.length + s.tracker.pipeline.routing.length +
        s.tracker.pipeline.held + (s.calls.countP (·.isRouted) + _) =
      s.tracker.pipeline.waiting.length + queue.length + s.tracker.pipeline.held +
        ((s.calls ++ [Call.check m]).countP (·.isRouted) + _) + 0
    rw [hrouting, List.countP_append, List.length_cons]
    simp only [List.countP_singleton, Call.isRouted, if_true]
    omega
  · have hrouting : s.tracker.pipeline.routing = [] := by
      rw [Pipeline.routing, queue_pipeline, hr]
      exact hq
    rw [hs]
    refine .quiet rfl rfl rfl ?_
    show s.tracker.pipeline.waiting.length + s.tracker.pipeline.routing.length +
        s.tracker.pipeline.held + s.underWay =
      s.tracker.pipeline.waiting.length + 0 + s.tracker.pipeline.held + s.underWay + 0
    rw [hrouting]
    rfl

theorem Orderly.takeUp (ho : s.Orderly t₀) : s.takeUp.Orderly t₀ := by
  rcases takeUp_cases s with hs | ⟨r, m, queue, hr, -, hs⟩ | ⟨r, hr, -, hl, hs⟩
  · exact hs.symm ▸ ho
  · have hi : ({ s with tracker := { s.tracker with router := some { r with queue } } } :
        System).Inv := ho.inv.quiet rfl
    rw [hs]
    refine ho.of_calls (hi.step (.lookup m)) ?_ (fun _ _ hb => hb) (fun c hc => ?_) ho.holder
    · exact ⟨ho.steady.exchange, ho.steady.settings, ho.steady.tracked, ho.steady.fed.feed,
        fun hnone => absurd hnone (by simp [queue_pipeline])⟩
    · refine (List.mem_append.mp hc).imp_right fun hc => ?_
      obtain rfl := List.mem_singleton.mp hc
      trivial
  · rw [hs]
    refine ho.quiet (ho.inv.quiet rfl) ?_ rfl
    exact ⟨ho.steady.exchange, ho.steady.settings, ho.steady.tracked, ho.steady.fed.feed,
      fun _ => hl⟩

end System

end Tracker

end BookFeed
