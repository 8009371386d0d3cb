import BookFeed.Proofs.Tracker.Handover
import BookFeed.Proofs.Tracker.Restart

/-!
# Trackers without a listener and a router

While a tracker does not run, messages may still be saved. `Unrouted ms` says where everything in
such a tracker comes from: only pairs of the saved messages `ms` have tasks and books, only these
messages wait for tasks, and only they are in the hands of calls.

* `Pipeline.Unrouted.moved`: what a task does keeps to this;
* `System.Unrouted.resume`, `System.Unrouted.resumeHolder`: so do the calls;
* **`Audit.unrouted_act`**: so does whatever happens, and only saved messages are processed.
-/

namespace BookFeed

/-! ## What waits -/

/-- Nothing has come from the router, and of what was saved only `ms`. -/
def Inbox.Saves (ms : Set Message) (p : String) (b : Inbox) : Prop :=
  b.live = [] ∧ ∀ m ∈ b.saved, m ∈ ms ∧ m.pair = p

variable {ms : Set Message} {p : String} {m : Message} {b b' : Inbox}

theorem Inbox.Saves.take (h : b.Saves ms p) (htake : b.take? = some (m, b')) :
    b'.Saves ms p ∧ m ∈ ms ∧ m.pair = p := by
  obtain ⟨saved, live⟩ := b
  obtain ⟨hlive, hsaved⟩ := h
  cases saved with
  | nil =>
    obtain rfl : live = [] := hlive
    exact absurd htake (by simp [take?])
  | cons first rest =>
    obtain ⟨rfl, rfl⟩ : first = m ∧ (⟨rest, live⟩ : Inbox) = b' := by
      simpa [take?] using htake
    obtain ⟨hfirst, hrest⟩ := List.forall_mem_cons.mp hsaved
    exact ⟨⟨hlive, hrest⟩, hfirst⟩

theorem Inbox.Saves.save (h : b.Saves ms p) (capacity : Nat) (hm : m ∈ ms) (hp : m.pair = p) :
    (b.save capacity m).Saves ms p := by
  refine ⟨h.1, fun m' hm' => ?_⟩
  rcases mem_saved_save hm' with hold | rfl
  · exact h.2 m' hold
  · exact ⟨hm, hp⟩

namespace Pipeline

variable {c c' : Pipeline} {k : Serving}

/-- Nobody listens or routes. Tasks and books are those of pairs of `ms`, and only `ms` wait. -/
structure Unrouted (ms : Set Message) (c : Pipeline) : Prop where
  listening : c.listening = false
  queue : c.queue = none
  tasks : ∀ {p k}, c.serving p = some k → (∃ m ∈ ms, m.pair = p) ∧ k.inbox.Saves ms p
  books : ∀ {p}, c.registry.view? p ≠ none → ∃ m ∈ ms, m.pair = p

theorem Unrouted.serve (h : c.Unrouted ms) (hp : ∃ m ∈ ms, m.pair = p)
    (hk : k.inbox.Saves ms p) : (c.serve p k).Unrouted ms where
  listening := h.listening
  queue := h.queue
  tasks {q k'} hq := by
    have hq : Function.update c.serving p (some k) q = some k' := hq
    by_cases hqp : q = p
    · subst hqp
      rw [Function.update_self] at hq
      exact Option.some.inj hq ▸ ⟨hp, hk⟩
    · rw [Function.update_of_ne hqp] at hq
      exact h.tasks hq
  books := h.books

/-- **What a task does keeps to this**: there is no listener and no router to do anything. -/
theorem Unrouted.moved (h : c.Unrouted ms) (hm : Moved c c') : c'.Unrouted ms := by
  have hsilent : c.listening ≠ true := by
    rw [h.listening]
    exact Bool.false_ne_true
  have hempty : ∀ {waits}, c.queue ≠ some waits := by
    rw [h.queue]
    exact fun h => absurd h (by simp)
  cases hm with
  | forwarded hs hl | finished hs hl => exact absurd hl hsilent
  | delivered hq | opened hq | rejected hq | closed hq => exact absurd hq hempty
  | recovered hk => exact h.serve (h.tasks hk).1 (h.tasks hk).2
  | processed hk hr htake hp =>
    obtain ⟨hnamed, hsaves⟩ := h.tasks hk
    exact Unrouted.serve ⟨h.listening, h.queue, h.tasks, h.books⟩ hnamed (hsaves.take htake).1

end Pipeline

namespace Tracker

variable {t t' : Tracker} {e : Event}

/-- **Whatever happens in a tracker apart from calls keeps to this.** -/
theorem unrouted_happen? (h : t.pipeline.Unrouted ms) (he : e.isRouting = false)
    (hhappen : t.happen? e = some t') : t'.pipeline.Unrouted ms := by
  rcases happen?_cases he hhappen with ⟨p, -, hp⟩ | ⟨-, ⟨hl, -⟩ | ⟨source, schedule, rfl⟩⟩
  · exact h.moved (processNext?_moved hp)
  · exact absurd (h.listening.symm.trans hl) Bool.false_ne_true
  · exact ⟨h.listening, h.queue, h.tasks, h.books⟩

/-! ## Calls -/

/-- The call hands over one of `ms` for who has saved it, or it hands over nothing. -/
def Call.Saves (ms : Set Message) : Call → Prop
  | .check _ => False
  | .find m sender | .enter m sender | .hand m sender _ => sender = .saver ∧ m ∈ ms
  | .replace _ | .untrack _ => True

@[inherit_doc Call.Saves]
def Holder.Saves (ms : Set Message) : Holder → Prop
  | .recheck m sender | .register m sender | .spawn m sender _ => sender = .saver ∧ m ∈ ms
  | .abort _ _ | .remove _ _ => True

theorem unrouted_handTo (h : t.pipeline.Unrouted ms) (hm : m ∈ ms) (handle : Handle) :
    (t.handTo m .saver handle).pipeline.Unrouted ms := by
  cases hp : t.pair? m.pair with
  | none =>
    have hsame : t.handTo m .saver handle = t := by simp only [Tracker.handTo, hp]
    rwa [hsame]
  | some task =>
    by_cases hh : task.handle = handle
    · subst hh
      have hserving : t.pipeline.serving m.pair = some task.serving := by
        rw [serving_pipeline, hp]
        rfl
      rw [pipeline_handTo .saver hp]
      exact h.serve ⟨m, hm, rfl⟩ ((h.tasks hserving).2.save _ hm rfl)
    · have hsame : t.handTo m .saver handle = t := by simp only [Tracker.handTo, hp, hh, if_false]
      rwa [hsame]

theorem unrouted_attach (h : t.pipeline.Unrouted ms) (hm : m ∈ ms) (handle : Handle) :
    (t.attach m.pair handle).1.pipeline.Unrouted ms := by
  rcases pipeline_attach (t := t) (p := m.pair) handle with hsame | ⟨-, book, hserve⟩
  · rwa [hsame]
  · rw [hserve]
    exact h.serve ⟨m, hm, rfl⟩ ⟨rfl, fun _ hm => absurd hm List.not_mem_nil⟩

theorem unrouted_register (h : t.pipeline.Unrouted ms) (hm : m ∈ ms) :
    ({ t with registry := (t.registry.register m.pair).1 } : Tracker).pipeline.Unrouted ms where
  listening := h.listening
  queue := h.queue
  tasks := h.tasks
  books {p} hp := by
    by_cases hpm : p = m.pair
    · exact ⟨m, hm, hpm.symm⟩
    · refine h.books (p := p) fun hnone => hp ?_
      cases hv : t.registry.view? m.pair with
      | some b =>
        have hsame : t.registry.register m.pair = (t.registry, b) := by rw [Registry.register, hv]
        show (t.registry.register m.pair).1.view? p = none
        rw [hsame]
        exact hnone
      | none => exact (Registry.view?_register_of_ne hv hpm).trans hnone

theorem unrouted_abort (h : t.pipeline.Unrouted ms) (hs : Sorted.Strict compare t.tasks) :
    (t.abort p).pipeline.Unrouted ms where
  listening := h.listening
  queue := h.queue
  tasks {q k} hq := by
    have hq : (Sorted.get? compare q (Sorted.erase compare p t.pairs)).map PairTask.serving =
      some k := hq
    have hpairs : Sorted.Strict compare t.pairs := List.pairwise_map.mp hs
    rw [Sorted.get?_erase hpairs] at hq
    split at hq
    · exact absurd hq (by simp)
    · exact h.tasks hq
  books := h.books

theorem unrouted_removeBook (h : t.pipeline.Unrouted ms)
    (hs : Sorted.Strict compare t.registry.entries) :
    (t.removeBook p).pipeline.Unrouted ms where
  listening := h.listening
  queue := h.queue
  tasks := h.tasks
  books {q} hq := by
    obtain ⟨b, hb⟩ := Option.ne_none_iff_exists'.mp hq
    have hold := (Registry.view?_of_remove hs hb).2
    exact h.books fun hnone => absurd (hold.symm.trans hnone) (by simp)

namespace System

/-- Nobody listens or routes, and all that there is stems from the saved messages `ms`. -/
structure Unrouted (ms : Set Message) (s : System) : Prop where
  pipeline : s.tracker.pipeline.Unrouted ms
  calls : ∀ c ∈ s.calls, c.Saves ms
  holder : ∀ h, s.holder = some h → h.Saves ms

variable {s : System} {c : Call} {h : Holder} {i : Nat} {next : List Call}

theorem Unrouted.turn (hu : s.Unrouted ms) (hnext : ∀ c ∈ next, c.Saves ms) :
    (s.turn i next).Unrouted ms where
  pipeline := hu.pipeline
  calls c hc := (List.mem_append.mp hc).elim
    (fun hold => hu.calls c (List.mem_of_mem_eraseIdx hold)) (hnext c)
  holder := hu.holder

theorem Unrouted.lock (hu : s.Unrouted ms) (hh : h.Saves ms) : (s.lock i h).Unrouted ms := by
  have hended : (s.turn i []).Unrouted ms := hu.turn (by simp)
  unfold System.lock
  split
  · exact hu
  · exact ⟨hended.pipeline, hended.calls, fun h' hh' => Option.some.inj hh' ▸ hh⟩

/-- Who has saved a message hears of it, and nothing else changes. -/
theorem Unrouted.answer (hu : s.Unrouted ms) (m : Message) (accepted : Bool) :
    (s.answer m .saver accepted).Unrouted ms := by
  cases accepted with
  | true => exact ⟨hu.pipeline, hu.calls, hu.holder⟩
  | false => exact ⟨hu.pipeline, hu.calls, hu.holder⟩

theorem Unrouted.resume (hu : s.Unrouted ms) (hc : c.Saves ms) : (s.resume i c).Unrouted ms := by
  have hended : (s.turn i []).Unrouted ms := hu.turn (by simp)
  cases c with
  | check m => exact absurd hc id
  | find m sender =>
    simp only [System.resume]
    split
    · exact hu.turn (List.forall_mem_singleton.mpr hc)
    · exact hu.turn (List.forall_mem_singleton.mpr hc)
  | enter m sender => exact hu.lock hc
  | hand m sender b =>
    obtain ⟨rfl, hm⟩ := hc
    have hhanded : ({ s.turn i [] with
        tracker := s.tracker.handTo m .saver b } : System).Unrouted ms :=
      ⟨unrouted_handTo hu.pipeline hm b, hended.calls, hended.holder⟩
    exact hhanded.answer m true
  | replace pairs =>
    have hleft : (s.turn i [.untrack (s.tracker.tracked.replace pairs).2.removed]).Unrouted ms :=
      hu.turn (List.forall_mem_singleton.mpr trivial)
    have htracked : ({ s.tracker with tracked := (s.tracker.tracked.replace pairs).1 } :
        Tracker).pipeline.Unrouted ms :=
      ⟨hu.pipeline.listening, hu.pipeline.queue, hu.pipeline.tasks, hu.pipeline.books⟩
    exact ⟨htracked, hleft.calls, hleft.holder⟩
  | untrack pairs =>
    cases pairs with
    | nil => exact hended
    | cons p others => exact hu.lock trivial

theorem Unrouted.resumeHolder (hu : s.Unrouted ms) (hi : s.Inv) (hh : h.Saves ms) :
    (s.resumeHolder h).Unrouted ms := by
  cases h with
  | recheck m sender =>
    obtain ⟨rfl, hm⟩ := hh
    simp only [System.resumeHolder]
    split
    · exact ⟨hu.pipeline, hu.calls, fun h hh => Option.some.inj hh ▸ ⟨rfl, hm⟩⟩
    · have hreleased : ({ s with holder := none } : System).Unrouted ms :=
        ⟨hu.pipeline, hu.calls, fun h hh => absurd hh (by simp)⟩
      exact hreleased.answer m false
  | register m sender =>
    exact ⟨unrouted_register hu.pipeline hh.2, hu.calls, fun h' hh' => Option.some.inj hh' ▸ hh⟩
  | spawn m sender b =>
    refine ⟨unrouted_attach hu.pipeline hh.2 b, fun c hc => ?_, fun h hh => absurd hh ?_⟩
    · rcases List.mem_append.mp hc with hold | hnew
      · exact hu.calls c hold
      · obtain rfl := List.mem_singleton.mp hnew
        exact hh
    · simp [System.resumeHolder]
  | abort p others =>
    exact ⟨unrouted_abort hu.pipeline hi.strict_tasks, hu.calls,
      fun h hh => Option.some.inj hh ▸ trivial⟩
  | remove p others =>
    refine ⟨unrouted_removeBook hu.pipeline hi.strict, fun c hc => ?_, fun h hh => absurd hh ?_⟩
    · rcases List.mem_append.mp hc with hold | hnew
      · exact hu.calls c hold
      · obtain rfl := List.mem_singleton.mp hnew
        trivial
    · simp [System.resumeHolder]

/-- **Whatever calls do keeps to this**, as long as only `ms` are saved. -/
theorem Unrouted.step (hu : s.Unrouted ms) (hi : s.Inv) {e : Event} (hrouted : ∀ m, e ≠ .lookup m)
    (hsaved : ∀ m, e = .save m → m ∈ ms) : (s.step e).Unrouted ms := by
  have hcalled : ∀ c : Call, c.Saves ms →
      ({ s with calls := s.calls ++ [c] } : System).Unrouted ms := fun c hc =>
    ⟨hu.pipeline, fun c' hc' => (List.mem_append.mp hc').elim (hu.calls c')
      fun hnew => List.mem_singleton.mp hnew ▸ hc, hu.holder⟩
  cases e with
  | lookup m => exact absurd rfl (hrouted m)
  | save m => exact hcalled _ ⟨rfl, hsaved m rfl⟩
  | update pairs => exact hcalled _ trivial
  | go i =>
    simp only [System.step]
    split
    · exact hu
    · rename_i hc
      exact hu.resume (hu.calls _ (List.mem_of_getElem? hc))
  | hold =>
    simp only [System.step]
    split
    · exact hu
    · rename_i hh
      exact hu.resumeHolder hi (hu.holder _ hh)
  | other e =>
    simp only [System.step]
    split
    · exact hu
    · rename_i he
      rw [Bool.not_eq_true] at he
      cases hs : s.tracker.happen? e with
      | none => exact hu
      | some t => exact ⟨unrouted_happen? hu.pipeline he hs, hu.calls, hu.holder⟩

end System

/-! ## Histories -/

namespace Audit

/-- The owner of the tracker starts or stops it. -/
def Action.isLifecycle : Action → Bool
  | .stop | .start => true
  | .other _ | .save _ | .update _ | .go _ | .hold => false

variable {x : Audit} {a : Action}

/-- Without a router, nobody looks for the pair of a message that was not saved. -/
theorem system_act (hr : x.tracker.router = none) (ha : a.isLifecycle = false) :
    ∃ e, (x.act a).system = x.system.step e ∧ (∀ m, e ≠ .lookup m) ∧
      ∀ m, e = .save m → a = .save m := by
  have hquiet : x.system.takeUp = x.system := by
    rcases System.takeUp_cases x.system with hs | ⟨r, m, queue, hr', -⟩ | ⟨r, hr', -⟩
    · exact hs
    · exact absurd (hr.symm.trans hr') (by simp)
    · exact absurd (hr.symm.trans hr') (by simp)
  cases a with
  | other e =>
    refine ⟨.other e, ?_, by simp, by simp⟩
    simp only [act, Audit.step]
    split
    · rename_i he
      rw [hquiet, System.step, if_pos he]
    · rename_i he
      cases hs : x.tracker.happen? e with
      | none =>
        have hs : x.system.tracker.happen? e = none := hs
        simp only [System.step, he, hs, Option.getD_none, Bool.false_eq_true, if_false]
      | some t => rfl
  | save m => exact ⟨.save m, rfl, by simp, fun m' h => by cases h; rfl⟩
  | update pairs => exact ⟨.update pairs, rfl, by simp, by simp⟩
  | go i => exact ⟨.go i, rfl, by simp, by simp⟩
  | hold => exact ⟨.hold, rfl, by simp, by simp⟩
  | stop | start => exact absurd ha (by simp [Action.isLifecycle])

/-- Only the task of a pair processes anything, one message in a turn. -/
theorem processed_act (x : Audit) (a : Action) : (x.act a).processed = x.processed ∨
    ∃ p d, x.tracker.next? p = some d ∧ (x.act a).processed = x.processed ++ [d] := by
  cases a with
  | other e =>
    simp only [act, Audit.step]
    split
    · exact .inl rfl
    · cases x.tracker.happen? e with
      | none => exact .inl rfl
      | some t =>
        show x.processed ++ (e.processing? x.tracker).toList = x.processed ∨ _
        cases hd : e.processing? x.tracker with
        | none => exact .inl (List.append_nil _)
        | some d =>
          obtain ⟨p, hp⟩ : ∃ p, x.tracker.next? p = some d := by
            unfold Event.processing? at hd
            split at hd
            · exact ⟨_, hd⟩
            · exact absurd hd (by simp)
          exact .inr ⟨p, d, hp, rfl⟩
  | save | update | go | hold | stop | start => exact .inl rfl

/-- What the task of a pair processes was saved for this pair. -/
theorem saved_of_next? (hu : x.tracker.pipeline.Unrouted ms) {d : Processing}
    (hd : x.tracker.next? p = some d) : d.message ∈ ms ∧ d.message.pair = d.pair := by
  obtain ⟨task, m, inbox, hp, -, htake, rfl, -⟩ := processNext?_of_next? hd
  have hserving : x.tracker.pipeline.serving p = some task.serving := by
    rw [serving_pipeline, hp]
    rfl
  exact ((hu.tasks hserving).2.take htake).2

/-- **What happens in a tracker that is not started keeps to what was saved.** -/
theorem unrouted_act (hu : x.system.Unrouted ms) (hi : x.system.Inv)
    (ha : a.isLifecycle = false) (hsaved : ∀ m, a = .save m → m ∈ ms) :
    (x.act a).system.Unrouted ms ∧ (x.act a).system.Inv := by
  have hr : x.tracker.router = none := Option.map_eq_none_iff.mp hu.pipeline.queue
  obtain ⟨e, hact, hrouted, hsave⟩ := system_act hr ha
  rw [hact]
  exact ⟨hu.step hi hrouted fun m hm => hsaved m (hsave m hm), hi.step e⟩

end Audit

end Tracker

end BookFeed
