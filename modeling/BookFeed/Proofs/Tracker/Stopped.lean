import BookFeed.Proofs.Tracker.Unrouted

/-!
# Trackers that do not run

Before a tracker is started, and after it is stopped, nobody listens and nobody routes. Still a
message may be saved, and who saves one looks for the task of its pair as the router does: if the
pair is tracked and has none, it gets its book and its task there and then. Whether the tracker runs
is not asked. So there may be books in a tracker that does not run, and tasks that process what was
saved, but nothing else.

`System.admitted` counts the messages for which such a search was successful. As long as it stays,
the tracker is `Dormant`, and with the first that is admitted it no longer is.

* `System.Unrouted.stirred`: in a dormant tracker, the next event admits a message or leaves it so;
* `Audit.stopped_new`, `Audit.stopped_stop`: new trackers, and those that are stopped, are dormant;
* **`Audit.perform_of_stopped`**: what may happen in one until it is started, and when nothing does.

Out of scope: tasks that outlive the stop (`BookFeed.Proofs.Tracker.Closing`). Here all have gone.
-/

namespace BookFeed

namespace Tracker

/-- No pair has a task or a book. -/
structure Dormant (t : Tracker) : Prop where
  tasks : t.pairs = []
  books : t.registry.entries = []

/-- The call has found the task that its message goes to. -/
def Call.isHanding : Call → Bool
  | .hand _ _ _ => true
  | .check _ | .find _ _ | .enter _ _ | .replace _ | .untrack _ => false

/-- The call has found the book that the task of its message will write. -/
def Holder.isSpawning : Holder → Bool
  | .spawn _ _ _ => true
  | .recheck _ _ | .register _ _ | .abort _ _ | .remove _ _ => false

variable {t t' : Tracker} {p : String} {m : Message}

theorem Dormant.pair? (h : t.Dormant) (p : String) : t.pair? p = none := by
  rw [Tracker.pair?, h.tasks]
  rfl

theorem Dormant.view? (h : t.Dormant) (p : String) : t.registry.view? p = none := by
  rw [Registry.view?, h.books]
  rfl

theorem Dormant.next? (h : t.Dormant) (p : String) : t.next? p = none := by
  rw [Tracker.next?, h.pair?]

theorem Dormant.of_shelf (h : t.Dormant) (hs : t'.shelf = t.shelf) : t'.Dormant where
  tasks := by
    have htasks : t'.tasks = t.tasks := congrArg Shelf.tasks hs
    rw [Tracker.tasks, Tracker.tasks, h.tasks] at htasks
    exact List.map_eq_nil_iff.mp htasks
  books := (congrArg Shelf.books hs).trans h.books

namespace System

/-- How many messages have got a place with their pairs: those who saved them have been told so, or
will be. -/
def admitted (s : System) : Nat :=
  s.saved + s.calls.countP (·.isHanding) + (s.holder.any (·.isSpawning)).toNat

/-- A step admits messages. It leaves a dormant tracker so exactly if it admits none. -/
structure Stirred (s s' : System) : Prop where
  admitted : s.admitted ≤ s'.admitted
  dormant : s.tracker.Dormant → (s'.tracker.Dormant ↔ s'.admitted = s.admitted)

variable {ms : Set Message} {s s' : System} {c : Call} {h : Holder} {i : Nat}

theorem Stirred.quiet (ha : s'.admitted = s.admitted)
    (hd : s.tracker.Dormant → s'.tracker.Dormant) : Stirred s s' :=
  ⟨ha.ge, fun h => iff_of_true (hd h) ha⟩

/-- When all calls have returned, those are admitted who were told so. -/
theorem admitted_of_free (hc : s.calls = []) (hf : s.holder = none) : s.admitted = s.saved := by
  rw [admitted, hc, hf]
  rfl

theorem admitted_of_holder (hh : s.holder = some h) :
    s.admitted = s.saved + s.calls.countP (·.isHanding) + h.isSpawning.toNat := by
  rw [admitted, hh]
  rfl

theorem admitted_answer (m : Message) (accepted : Bool) :
    (s.answer m .saver accepted).admitted = s.admitted + accepted.toNat := by
  cases accepted with
  | true =>
    have hsaved : (s.answer m .saver true).saved = s.saved + 1 := saved_concat _
    show (s.answer m .saver true).saved + s.calls.countP (·.isHanding) +
      (s.holder.any (·.isSpawning)).toNat = s.admitted + 1
    rw [hsaved, admitted]
    omega
  | false =>
    have hsaved : (s.answer m .saver false).saved = s.saved := saved_concat _
    show (s.answer m .saver false).saved + s.calls.countP (·.isHanding) +
      (s.holder.any (·.isSpawning)).toNat = s.admitted
    rw [hsaved]
    rfl

theorem admitted_turn (next : List Call) (hc : s.calls[i]? = some c) :
    (s.turn i next).admitted + c.isHanding.toNat =
      s.admitted + next.countP (·.isHanding) := by
  have hcount := countP_turn (·.isHanding) next hc
  have hsaved : (s.turn i next).saved = s.saved := rfl
  have hholder : (s.turn i next).holder = s.holder := rfl
  rw [admitted, admitted, hsaved, hholder]
  omega

theorem Stirred.lock (hc : s.calls[i]? = some c) (hhanding : c.isHanding = false)
    (hspawning : h.isSpawning = false) : Stirred s (s.lock i h) := by
  unfold System.lock
  split
  · exact .quiet rfl id
  · rename_i hfree
    have hturn : (s.turn i []).admitted + c.isHanding.toNat = s.admitted := admitted_turn [] hc
    have hfree : (s.turn i []).holder = none := hfree
    rw [hhanding, System.admitted, hfree] at hturn
    refine .quiet ?_ id
    rw [admitted_of_holder rfl, hspawning]
    exact hturn

theorem Unrouted.stirred_resume (hu : s.Unrouted ms) (hc : s.calls[i]? = some c) :
    Stirred s (s.resume i c) := by
  have hsaves := hu.calls c (List.mem_of_getElem? hc)
  cases c with
  | check m => exact absurd hsaves id
  | find m sender =>
    simp only [System.resume]
    split
    · rename_i task hp
      have hturn : (s.turn i [.hand m sender task.handle]).admitted = s.admitted + 1 :=
        admitted_turn [.hand m sender task.handle] hc
      refine ⟨by omega, fun hd => ?_⟩
      exact absurd (hp.symm.trans (hd.pair? _)) (by simp)
    · exact .quiet (admitted_turn [.enter m sender] hc) id
  | enter m sender => exact .lock hc rfl rfl
  | hand m sender b =>
    obtain ⟨rfl, -⟩ := hsaves
    have hturn : (s.turn i []).admitted + 1 = s.admitted := admitted_turn [] hc
    refine .quiet ((admitted_answer m true).trans hturn) fun hd => ?_
    have hsame : s.tracker.handTo m .saver b = s.tracker := by
      simp only [Tracker.handTo, hd.pair?]
    show (s.tracker.handTo m .saver b).Dormant
    rwa [hsame]
  | replace pairs =>
    exact .quiet (admitted_turn [.untrack _] hc) fun hd => ⟨hd.tasks, hd.books⟩
  | untrack pairs =>
    cases pairs with
    | nil => exact .quiet (admitted_turn [] hc) id
    | cons p others => exact .lock hc rfl rfl

theorem Unrouted.stirred_holder (hu : s.Unrouted ms) (hi : s.Inv) (hh : s.holder = some h) :
    Stirred s (s.resumeHolder h) := by
  have hbefore := admitted_of_holder hh
  have hsaves := hu.holder h hh
  cases h with
  | recheck m sender =>
    obtain ⟨rfl, -⟩ := hsaves
    simp only [System.resumeHolder]
    split
    · exact .quiet hbefore.symm id
    · refine .quiet ?_ id
      rw [admitted_answer, hbefore]
      rfl
  | register m sender =>
    have hafter : (s.resumeHolder (.register m sender)).admitted = s.admitted + 1 := by
      rw [hbefore]
      rfl
    refine ⟨by omega, fun hd => iff_of_false (fun hd' => ?_) (by omega)⟩
    -- the new book is there
    have hview : (s.tracker.registry.register m.pair).1.view? m.pair = none := hd'.view? m.pair
    rw [Registry.view?_register_self (hd.view? m.pair)] at hview
    exact absurd hview (by simp)
  | spawn m sender b =>
    have hcount : (s.resumeHolder (.spawn m sender b)).admitted =
        s.saved + (s.calls ++ [Call.hand m sender (s.tracker.attach m.pair b).2]).countP
          (·.isHanding) + 0 := rfl
    rw [List.countP_append] at hcount
    refine ⟨(hbefore.trans hcount.symm).le, fun hd => ?_⟩
    have hview : s.tracker.registry.view? m.pair = some b := (hi.apart hh).1
    exact absurd (hview.symm.trans (hd.view? m.pair)) (by simp)
  | abort p others =>
    refine .quiet hbefore.symm fun hd => ⟨?_, hd.books⟩
    show Sorted.erase compare p s.tracker.pairs = []
    rw [hd.tasks]
    rfl
  | remove p others =>
    have hcount : (s.resumeHolder (.remove p others)).admitted =
        s.saved + (s.calls ++ [Call.untrack others]).countP (·.isHanding) + 0 := rfl
    rw [List.countP_append] at hcount
    refine .quiet (hcount.trans hbefore.symm) fun hd => ⟨hd.tasks, ?_⟩
    show Sorted.erase compare p s.tracker.registry.entries = []
    rw [hd.books]
    rfl

/-- **A tracker stays dormant exactly as long as no message is admitted.** -/
theorem Unrouted.stirred (hu : s.Unrouted ms) (hi : s.Inv) {e : Event}
    (hrouted : ∀ m, e ≠ .lookup m) : Stirred s (s.step e) := by
  have hcalled : ∀ c : Call, c.isHanding = false →
      Stirred s { s with calls := s.calls ++ [c] } := fun c hc => by
    refine .quiet ?_ id
    rw [admitted, admitted, List.countP_append, List.countP_singleton, hc]
    rfl
  cases e with
  | lookup m => exact absurd rfl (hrouted m)
  | save m => exact hcalled _ rfl
  | update pairs => exact hcalled _ rfl
  | go i =>
    simp only [System.step]
    split
    · exact .quiet rfl id
    · rename_i hc
      exact hu.stirred_resume hc
  | hold =>
    simp only [System.step]
    split
    · exact .quiet rfl id
    · rename_i hh
      exact hu.stirred_holder hi hh
  | other e =>
    simp only [System.step]
    split
    · exact .quiet rfl id
    · rename_i he
      rw [Bool.not_eq_true] at he
      cases hs : s.tracker.happen? e with
      | none => exact .quiet rfl id
      | some t => exact .quiet rfl fun hd => hd.of_shelf (shelf_happen? hi.strict_tasks he hs)

end System

namespace Audit

open Synchronizer (sampleOpening)

/-! ## Trackers that have not been started -/

/-- The tracker is new, or it was stopped, and nobody has called since. -/
structure Stopped (x : Audit) : Prop where
  listening : x.tracker.listening = false
  router : x.tracker.router = none
  dormant : x.tracker.Dormant
  calls : x.system.calls = []
  free : x.system.holder = none

theorem stopped_new (exchange : String) (settings : Settings) (source : Source)
    (tracked : TrackedPairs) (epoch : Nat) (sent : List Message) :
    Stopped { system := { tracker := { exchange, settings, source, tracked, epoch } }, sent } :=
  ⟨rfl, rfl, ⟨rfl, rfl⟩, rfl, rfl⟩

variable {ms : Set Message} {x : Audit} {a : Action} {later : List Action}

theorem stopped_stop (hq : x.system.isQuiet = true) : (x.act .stop).Stopped := by
  obtain ⟨hcalls, hfree⟩ := (Bool.and_eq_true _ _).mp hq
  simp only [act, System.stop, hq, if_true]
  exact ⟨rfl, rfl, ⟨rfl, rfl⟩, List.isEmpty_iff.mp hcalls, Option.isNone_iff_eq_none.mp hfree⟩

theorem Stopped.inv (h : x.Stopped) : x.system.Inv where
  strict := h.dormant.books ▸ List.Pairwise.nil
  sound :=
    ⟨fun {p b} hb => absurd ((h.dormant.view? p).symm.trans hb) (by simp),
      fun {p q b} hb => absurd ((h.dormant.view? p).symm.trans hb) (by simp)⟩
  matched := by
    rw [System.Matched, h.free]
    show x.tracker.pairs.map _ = x.tracker.registry.entries
    rw [h.dormant.tasks, h.dormant.books]
    rfl
  wanted p hp := by
    have hview : x.system.tracker.registry.view? p = none := h.dormant.view? p
    rw [Registry.contains, hview] at hp
    exact absurd hp Bool.false_ne_true
  cleared m sender hh := absurd (h.free.symm.trans hh) (by simp)

theorem Stopped.unrouted (h : x.Stopped) (ms : Set Message) : x.system.Unrouted ms where
  pipeline :=
    { listening := h.listening
      queue := Option.map_eq_none_iff.mpr h.router
      tasks := fun {p k} hk => by
        have hnone : x.system.tracker.pipeline.serving p = none :=
          congrArg (Option.map PairTask.serving) (h.dormant.pair? p)
        exact absurd (hnone.symm.trans hk) (by simp)
      books := fun {p} hp => absurd (h.dormant.view? p) hp }
  calls c hc := absurd (h.calls ▸ hc) List.not_mem_nil
  holder h' hh := absurd (h.free.symm.trans hh) (by simp)

/-! ## Until the start -/

theorem perform_concat (x : Audit) (history : List Action) (a : Action) :
    x.perform (history ++ [a]) = (x.perform history).act a := List.foldl_concat ..

/-- **All that there is stems from what was saved.** -/
theorem unrouted_perform (hu : x.system.Unrouted ms) (hi : x.system.Inv)
    (hlater : ∀ a ∈ later, a.isLifecycle = false) (hsaved : ∀ m, Action.save m ∈ later → m ∈ ms) :
    (x.perform later).system.Unrouted ms ∧ (x.perform later).system.Inv ∧
      ∃ new, (x.perform later).processed = x.processed ++ new ∧
        ∀ d ∈ new, d.message ∈ ms ∧ d.message.pair = d.pair := by
  induction later using List.reverseRecOn with
  | nil => exact ⟨hu, hi, [], (List.append_nil _).symm, fun d hd => absurd hd List.not_mem_nil⟩
  | append_singleton earlier a ih =>
    obtain ⟨hu, hi, new, hnew, hstems⟩ :=
      ih (fun b hb => hlater b (List.mem_append_left _ hb))
        (fun m hm => hsaved m (List.mem_append_left _ hm))
    rw [perform_concat]
    obtain ⟨hu', hi'⟩ := unrouted_act hu hi (hlater a List.mem_concat_self)
      fun m hm => hsaved m (hm ▸ List.mem_concat_self)
    refine ⟨hu', hi', ?_⟩
    rcases processed_act (x.perform earlier) a with hsame | ⟨p, d, hd, hgrown⟩
    · exact ⟨new, hsame.trans hnew, hstems⟩
    · refine ⟨new ++ [d], by rw [hgrown, hnew, List.append_assoc], fun d' hd' => ?_⟩
      rcases List.mem_append.mp hd' with hold | hlast
      · exact hstems d' hold
      · obtain rfl := List.mem_singleton.mp hlast
        exact saved_of_next? hu.pipeline hd

/-- No pair has a task or a book in `y`, and nothing has been processed since `x`. -/
structure Silent (x y : Audit) : Prop where
  dormant : y.tracker.Dormant
  processed : y.processed = x.processed

/-- At no time in a history has a pair a task or a book, and nothing is processed. -/
def SilentDuring (x : Audit) (later : List Action) : Prop :=
  ∀ earlier, earlier <+: later → x.Silent (x.perform earlier)

/-- **It is silent all the time exactly if no message is admitted.** -/
theorem silentDuring_iff (h : x.Stopped) (hlater : ∀ a ∈ later, a.isLifecycle = false) :
    x.system.admitted ≤ (x.perform later).system.admitted ∧
      (x.SilentDuring later ↔ (x.perform later).system.admitted = x.system.admitted) := by
  induction later using List.reverseRecOn with
  | nil =>
    refine ⟨le_rfl, iff_of_true (fun earlier he => ?_) rfl⟩
    obtain rfl := List.prefix_nil.mp he
    exact ⟨h.dormant, rfl⟩
  | append_singleton later a ih =>
    have hbefore : ∀ b ∈ later, b.isLifecycle = false := fun b hb =>
      hlater b (List.mem_append_left _ hb)
    obtain ⟨hmore, ih⟩ := ih hbefore
    obtain ⟨hu, hi, -⟩ := unrouted_perform (h.unrouted Set.univ) h.inv hbefore
      fun m _ => Set.mem_univ m
    have hstirred : System.Stirred (x.perform later).system ((x.perform later).act a).system := by
      obtain ⟨e, hact, hrouted, -⟩ := system_act (Option.map_eq_none_iff.mp hu.pipeline.queue)
        (hlater a List.mem_concat_self)
      exact hact ▸ hu.stirred hi hrouted
    have hgrown := hstirred.admitted
    rw [perform_concat]
    refine ⟨hmore.trans hgrown, fun hsilent => ?_, fun hsame => ?_⟩
    · have hy := hsilent later (List.prefix_append later [a])
      have hlast := hsilent (later ++ [a]) List.prefix_rfl
      rw [perform_concat] at hlast
      rw [(hstirred.dormant hy.dormant).mp hlast.dormant]
      exact ih.mp fun earlier he => hsilent earlier (he.trans (List.prefix_append later [a]))
    · have hsilent := ih.mpr (by omega)
      have hy := hsilent later List.prefix_rfl
      intro earlier he
      rcases List.prefix_concat_iff.mp he with rfl | he
      · rw [perform_concat]
        refine ⟨(hstirred.dormant hy.dormant).mpr (by omega), ?_⟩
        rcases processed_act (x.perform later) a with hquiet | ⟨p, d, hd, -⟩
        · exact hquiet.trans hy.processed
        · exact absurd (hd.symm.trans (hy.dormant.next? p)) (by simp)
      · exact hsilent earlier he

/-- What a history `later` has made of a tracker that is not started. -/
structure Roused (x : Audit) (later : List Action) (y : Audit) : Prop where
  isRunning : y.tracker.isRunning = false
  tasks : ∀ p, y.tracker.pair? p ≠ none → ∃ m, Action.save m ∈ later ∧ m.pair = p
  books : ∀ p, y.tracker.registry.contains p = true → ∃ m, Action.save m ∈ later ∧ m.pair = p
  processed : ∃ new, y.processed = x.processed ++ new ∧
    ∀ d ∈ new, Action.save d.message ∈ later ∧ d.message.pair = d.pair
  silent : x.SilentDuring later ↔ y.system.admitted = x.system.admitted
  /-- that is, once all calls have returned, if nobody was told that a message was saved -/
  answers : y.system.calls = [] → y.system.holder = none →
    (x.SilentDuring later ↔ y.system.saved = x.system.saved)

/-- **A tracker that is not started serves those who save messages, and nobody else.** Whatever
happens before the first start, or between a stop and the next start: the tracker does not run, only
pairs of messages that were saved have tasks and books, and only such messages are processed, by the
tasks of their pairs. No pair has a task or a book at any time, and nothing is processed, exactly if
no message that was saved has got a place with its pair. -/
theorem perform_of_stopped (x : Audit) (later : List Action) (h : x.Stopped)
    (hlater : ∀ a ∈ later, a.isLifecycle = false) : Roused x later (x.perform later) := by
  obtain ⟨hu, -, hprocessed⟩ :=
    unrouted_perform (h.unrouted {m | Action.save m ∈ later}) h.inv hlater fun _ hm => hm
  have hsilent := (silentDuring_iff h hlater).2
  refine ⟨?_, fun p hp => ?_, fun p hp => ?_, hprocessed, hsilent, fun hcalls hfree => ?_⟩
  · have hlistening : (x.perform later).tracker.listening = false := hu.pipeline.listening
    have hrouter : (x.perform later).tracker.router = none :=
      Option.map_eq_none_iff.mp hu.pipeline.queue
    rw [Tracker.isRunning, hlistening, hrouter]
    rfl
  · obtain ⟨task, htask⟩ := Option.ne_none_iff_exists'.mp hp
    have hserving : (x.perform later).system.tracker.pipeline.serving p = some task.serving :=
      congrArg (Option.map PairTask.serving) htask
    exact (hu.pipeline.tasks hserving).1
  · refine hu.pipeline.books fun hnone => ?_
    rw [Registry.contains, show (x.perform later).tracker.registry.view? p = none from hnone] at hp
    exact absurd hp Bool.false_ne_true
  · rw [hsilent, System.admitted_of_free hcalls hfree, System.admitted_of_free h.calls h.free]

/-- A tracker is stopped, while a message waits in its feed. Then another one is sent, one pair is
dropped, and who saves a message of that pair is turned away: there is silence. But then a message
of the pair that is still tracked is saved, and processed. -/
theorem perform_of_stopped_between :
    let t : Tracker :=
      { exchange := "sample", settings := {}, source := .feed {},
        tracked := .ofList ["BTC-USDT", "ETH-USDT"] }
    let m := sampleOpening 10 1 "A" (.ofNat 100) (.ofNat 1)
    let spawning : List Action := [.go 0, .go 0, .hold, .hold, .hold, .go 0]
    let running : List Action :=
      [.other (.send m), .other (.turn .listener), .other (.turn .router), .go 0] ++ spawning ++
      [.other (.turn (.pair "BTC-USDT")), .other (.send m)]
    let quiet : List Action :=
      [.other (.send m), .other (.turn .listener), .update ["BTC-USDT"], .go 0, .go 0, .hold, .hold,
        .go 0, .save { m with pair := "ETH-USDT" }, .go 0, .go 0, .hold]
    let later : List Action :=
      quiet ++ [.save m] ++ spawning ++ [.other (.turn (.pair "BTC-USDT"))]
    let x := ((start t).perform running).act .stop
    let y := x.perform later
    x.Stopped ∧ (∀ a ∈ later, a.isLifecycle = false) ∧ x.processed.length = 1 ∧
      y.processed.length = 2 ∧ y.tracker.registry.pairs = ["BTC-USDT"] ∧ Roused x later y ∧
      x.SilentDuring quiet := by
  intro t m spawning running quiet later x y
  have hstopped : x.Stopped := stopped_stop (by decide +kernel)
  have hlater : ∀ a ∈ later, a.isLifecycle = false := by decide +kernel
  have hquiet : ∀ a ∈ quiet, a.isLifecycle = false := by decide +kernel
  refine ⟨hstopped, hlater, by decide +kernel, by decide +kernel, by decide +kernel,
    perform_of_stopped x later hstopped hlater, ?_⟩
  exact (perform_of_stopped x quiet hstopped hquiet).silent.mpr (by decide +kernel)

/-- **A new tracker that nobody has started has a task that processes a message.** Its pair is
tracked, and the message was saved. -/
theorem unstarted_processes :
    let t : Tracker :=
      { exchange := "sample", settings := {}, source := .feed {},
        tracked := .ofList ["BTC-USDT"] }
    let x : Audit := { system := { tracker := t }, sent := [] }
    let m := sampleOpening 10 1 "A" (.ofNat 100) (.ofNat 1)
    let later : List Action :=
      [.save m, .go 0, .go 0, .hold, .hold, .hold, .go 0, .other (.turn (.pair "BTC-USDT"))]
    let y := x.perform later
    x.Stopped ∧ (∀ a ∈ later, a.isLifecycle = false) ∧ y.tracker.isRunning = false ∧
      y.tracker.pairs.map (·.1) = ["BTC-USDT"] ∧ y.tracker.registry.pairs = ["BTC-USDT"] ∧
      y.processed.map (·.message) = [m] ∧ ¬ x.SilentDuring later := by
  intro t x m later y
  have hprocessed : y.processed.map (·.message) = [m] := by decide +kernel
  refine ⟨stopped_new _ _ _ _ _ _, by decide +kernel, by decide +kernel, by decide +kernel,
    by decide +kernel, hprocessed, fun hsilent => ?_⟩
  rw [(hsilent later List.prefix_rfl).processed] at hprocessed
  exact absurd hprocessed (by simp [x])

end Audit

end Tracker

end BookFeed
