import BookFeed.Proofs.Tracker.Desk
import Mathlib.Data.List.Induction

/-!
# Backlog discipline

Saved messages come before live ones, wait in a backlog of bounded length, and leave it in the order
in which they were saved. None of this depends on how those who save and deliver take turns with the
task, nor does it matter that there is one permit for all notices (`Desk.Disciplined`).

A task that has found the backlog empty relies on being told of what is saved from then on. This is
what carries the rest: as long as it has taken nothing since, a saved message whose save has given
notice comes with a permit (`Disciplined.told`). A task that is called for a live message can know of
no other. So where a save is interrupted before it gives notice, its message does not come before
live ones yet, and where no save is, every saved message comes before all live ones.

* `Disciplined.step`: every event keeps the discipline;
* `exists_done`: a task that is left alone gets everything done;
* **`run_disciplined`**: so does every desk, after any interleaving.
-/

namespace BookFeed

/-- How many turns the task is away from waiting, if it takes no other message. -/
def Stance.rank : Stance → Nat
  | busy _ => 4
  | pausing => 3
  | looking => 2
  | turning => 1
  | waiting called => called.toNat

namespace Desk

/-- What the journal and the state of a desk say of each other, where the task began with `s₀`. -/
structure Disciplined (s₀ : Synchronizer) (capacity : Nat) (d : Desk) : Prop where
  /-- the backlog never exceeds the capacity -/
  bounded : d.inbox.saved.length ≤ capacity
  /-- saved messages leave in the order in which they were saved, each in one way; the rest waits -/
  saved : d.journal.saved = d.journal.departed.map (·.message) ++ d.inbox.saved
  /-- only the oldest one is dropped, and only from a full backlog -/
  dropped : ∀ m backlog, .dropped m backlog ∈ d.journal.departed →
    backlog.head? = some m ∧ backlog.length = capacity
  /-- those that were not dropped are the saved ones that the task has taken -/
  kept : d.journal.departed.filterMap (·.taken?) =
    (d.journal.taken.filter (·.saved)).map (·.message)
  /-- live messages are taken in the order in which they were delivered; the rest waits -/
  live : d.journal.delivered =
    (d.journal.taken.filter (!·.saved)).map (·.message) ++ d.inbox.live
  /-- what was taken is processed at once -/
  taken : d.journal.taken.map (·.message) =
    d.journal.processed.map (·.message) ++ d.stance.inHand
  /-- and to process it is to call the synchronizer of the task -/
  processed : d.journal.processed = s₀.history (d.journal.processed.map (·.message)) ∧
    d.synchronizer = s₀.run (d.journal.processed.map (·.message))
  /-- no live message is taken while a saved one waits whose save has given notice -/
  prior : ∀ x ∈ d.journal.taken, x.saved = false → x.ready = []
  /-- who has found the backlog empty is told when it is not empty any more -/
  told : d.stance.isPast = true → d.ready ≠ [] → d.permit = true
  /-- and who waits has overlooked no notice and is called for every live message -/
  called : d.stance = .waiting false → d.permit = false ∧ d.inbox.live = []

variable {s₀ : Synchronizer} {capacity : Nat} {d : Desk} {m : Message}

theorem isPast_call {s : Stance} : s.call.isPast = s.isPast := by cases s <;> rfl

theorem inHand_call {s : Stance} : s.call.inHand = s.inHand := by cases s <;> rfl

theorem call_ne_waiting {s : Stance} : s.call ≠ .waiting false := by
  cases s <;> simp [Stance.call]

theorem disciplined_new (s₀ : Synchronizer) (capacity : Nat) :
    (new s₀).Disciplined s₀ capacity := by
  refine ⟨Nat.zero_le _, rfl, by simp [new], rfl, rfl, rfl, ⟨rfl, rfl⟩, by simp [new], ?_, ?_⟩
  · exact fun h => absurd h (by simp [new, Stance.isPast])
  · exact fun h => absurd h (by simp [new])

/-- Putting a message down leaves the places of those that wait. -/
theorem mem_line_put (h : d.Disciplined s₀ capacity) {x : Message × Nat}
    (hx : x ∈ (d.put capacity m).line) : x ∈ d.line ∨ x = (m, d.journal.saved.length) := by
  have hplaces : d.journal.saved.length = d.journal.departed.length + d.inbox.saved.length := by
    rw [h.saved, List.length_append, List.length_map]
  have hall := congrArg (List.zipIdx · d.journal.departed.length)
    (Inbox.evicted_append_saved_save capacity d.inbox m)
  simp only [List.zipIdx_append, List.zipIdx_cons, List.zipIdx_nil, ← hplaces] at hall
  have hmem : x ∈ d.line ++ [(m, d.journal.saved.length)] := by
    unfold line at hx ⊢
    rw [← hall]
    refine List.mem_append_right _ ?_
    simpa [Desk.put] using hx
  exact (List.mem_append.mp hmem).imp_right List.mem_singleton.mp

/-- A message that is put down is not ready before its save gives notice. -/
theorem ready_put (h : d.Disciplined s₀ capacity) (hd : d.ready = []) :
    (d.put capacity m).ready = [] := by
  rw [ready_eq_nil_iff] at hd ⊢
  intro x hx
  refine List.mem_append.mpr ?_
  rcases mem_line_put h hx with hx | rfl
  · exact .inl (hd x hx)
  · exact .inr (List.mem_singleton_self _)

/-- **A save drops the oldest saved message, if the backlog is full.** -/
theorem Disciplined.put (h : d.Disciplined s₀ capacity) (hc : 1 ≤ capacity) (m : Message) :
    (d.put capacity m).Disciplined s₀ capacity where
  bounded := Inbox.length_saved_save m hc h.bounded
  saved := by
    have hsaved := Inbox.evicted_append_saved_save capacity d.inbox m
    simp only [Desk.put, List.map_append, List.map_map, List.append_assoc]
    rw [h.saved, List.append_assoc, ← hsaved]
    simp [Function.comp_def]
  dropped m' backlog hmem := by
    rcases List.mem_append.mp hmem with hmem | hmem
    · exact h.dropped m' backlog hmem
    · obtain ⟨x, hx, heq⟩ := List.mem_map.mp hmem
      obtain ⟨rfl, rfl⟩ := Departure.dropped.inj heq
      obtain ⟨-, hhead, hfull⟩ := Inbox.evicted_eq_singleton hx
      exact ⟨hhead, h.bounded.antisymm hfull⟩
  kept := by
    have hnone : ((d.inbox.evicted capacity).map (Departure.dropped · d.inbox.saved)).filterMap
        (·.taken?) = [] := by
      simp [List.filterMap_map, Function.comp_def]
    simp only [Desk.put, List.filterMap_append, hnone, List.append_nil]
    exact h.kept
  live := h.live
  taken := h.taken
  processed := h.processed
  prior := h.prior
  told hp hne := h.told hp fun hd => hne (ready_put h hd)
  called := h.called

theorem Disciplined.notify (h : d.Disciplined s₀ capacity) (n : Nat) :
    (d.notify n).Disciplined s₀ capacity := by
  unfold Desk.notify
  split
  · split
    · rename_i called hs
      exact
        { h with
          taken := h.taken.trans (congrArg _ (by rw [hs]; rfl))
          told := fun hp => absurd hp (by simp [Stance.isPast])
          called := fun hw => absurd hw (by simp) }
    · rename_i hs
      exact
        { h with
          told := fun _ _ => rfl
          called := fun hw => absurd hw (hs false) }
  · exact h

theorem Disciplined.deliver (h : d.Disciplined s₀ capacity) (m : Message) :
    (d.deliver m).Disciplined s₀ capacity where
  bounded := h.bounded
  saved := h.saved
  dropped := h.dropped
  kept := h.kept
  live := by
    simp only [Desk.deliver, Inbox.deliver]
    rw [h.live, List.append_assoc]
  taken := h.taken.trans (congrArg _ inHand_call.symm)
  processed := h.processed
  prior := h.prior
  told hp := h.told (isPast_call ▸ hp)
  called hw := absurd hw call_ne_waiting

theorem Disciplined.look (h : d.Disciplined s₀ capacity) (hs : d.stance.inHand = []) :
    d.look.Disciplined s₀ capacity := by
  have htaken := h.taken
  rw [hs] at htaken
  unfold Desk.look
  split
  · rename_i hnil
    exact
      { h with
        taken := htaken
        told := fun _ hne => absurd (ready_eq_nil_iff.mpr (by simp [line, hnil])) hne
        called := fun hw => absurd hw (by simp) }
  · rename_i m rest hcons
    exact
      { h with
        bounded := by
          have hb := h.bounded
          rw [hcons, List.length_cons] at hb
          exact Nat.le_of_succ_le hb
        saved := by
          have hsaved := h.saved
          rw [hcons] at hsaved
          simp [hsaved]
        dropped := fun m' backlog hmem => by
          refine h.dropped m' backlog ((List.mem_append.mp hmem).resolve_right ?_)
          simp
        kept := by
          have hkept := h.kept
          simp [hkept]
        live := by
          have hlive := h.live
          simpa using hlive
        taken := by simp [htaken, Stance.inHand]
        prior := fun x hx hlive => by
          refine h.prior x ((List.mem_append.mp hx).resolve_right fun hx => ?_) hlive
          rw [List.mem_singleton.mp hx] at hlive
          exact absurd hlive (by simp)
        told := fun hp => absurd hp (by simp [Stance.isPast])
        called := fun hw => absurd hw (by simp) }

/-- **A task takes a live message only if it has been told of no saved one.** -/
theorem Disciplined.poll (h : d.Disciplined s₀ capacity) (ht : d.ready ≠ [] → d.permit = true)
    (hs : d.stance.inHand = []) : d.poll.Disciplined s₀ capacity := by
  have htaken := h.taken
  rw [hs] at htaken
  unfold Desk.poll
  split
  · exact
      { h with
        taken := htaken
        told := fun hp => absurd hp (by simp [Stance.isPast])
        called := fun hw => absurd hw (by simp) }
  · rename_i hpermit
    rw [Bool.not_eq_true] at hpermit
    have hready : d.ready = [] := by
      by_contra hne
      exact absurd (ht hne) (by simp [hpermit])
    split
    · rename_i hnil
      exact
        { h with
          taken := htaken
          told := fun _ hne => absurd hready hne
          called := fun _ => ⟨hpermit, hnil⟩ }
    · rename_i m rest hcons
      exact
        { h with
          kept := by
            have hkept := h.kept
            simpa using hkept
          live := by
            have hlive := h.live
            rw [hcons] at hlive
            simp [hlive]
          taken := by simp [htaken, Stance.inHand]
          prior := fun x hx hlive => by
            rcases List.mem_append.mp hx with hx | hx
            · exact h.prior x hx hlive
            · obtain rfl := List.mem_singleton.mp hx
              exact hready
          told := fun hp => absurd hp (by simp [Stance.isPast])
          called := fun hw => absurd hw (by simp) }

theorem Disciplined.choose (h : d.Disciplined s₀ capacity) (hs : d.stance.inHand = []) :
    d.choose.Disciplined s₀ capacity := by
  unfold Desk.choose
  split
  · rename_i hnil
    have hready : ({ d with permit := false } : Desk).ready = [] :=
      ready_eq_nil_iff.mpr (by simp [line, hnil])
    have hspent : ({ d with permit := false } : Desk).Disciplined s₀ capacity :=
      { h with
        told := fun _ hne => absurd hready hne
        called := fun hw => ⟨rfl, (h.called hw).2⟩ }
    exact hspent.poll (fun hne => absurd hready hne) hs
  · exact h.look hs

theorem Disciplined.finish (h : d.Disciplined s₀ capacity) (hs : d.stance = .busy m) :
    (d.finish m).Disciplined s₀ capacity := by
  have htaken := h.taken
  rw [hs] at htaken
  obtain ⟨hprocessed, hsync⟩ := h.processed
  unfold Desk.finish
  cases hp : d.synchronizer.process m with
  | mk s outcome =>
    have hnext : (if outcome.isOk then Stance.looking else .pausing).inHand = [] := by
      split <;> rfl
    exact
      { h with
        taken := by
          rw [hnext, htaken]
          simp [Stance.inHand]
        processed := by
          have hprocess : (s₀.run (d.journal.processed.map (·.message))).process m =
              (s, outcome) := hsync ▸ hp
          constructor
          · simp only [List.map_append, List.map_singleton, Synchronizer.history_concat, hprocess]
            rw [← hprocessed]
          · simp only [List.map_append, List.map_singleton, Synchronizer.run_concat, hprocess]
        told := fun hpast => absurd hpast (by simp only; split <;> simp [Stance.isPast])
        called := fun hw => absurd hw (by simp only; split <;> simp) }

theorem Disciplined.resume (h : d.Disciplined s₀ capacity) (hs : d.stance = .pausing) :
    ({ d with stance := .looking } : Desk).Disciplined s₀ capacity := by
  have htaken := h.taken
  rw [hs] at htaken
  exact
    { h with
      taken := htaken
      told := fun hp => absurd hp (by simp [Stance.isPast])
      called := fun hw => absurd hw (by simp) }

/-- **Every event keeps the discipline.** -/
theorem Disciplined.step (h : d.Disciplined s₀ capacity) (hc : 1 ≤ capacity) (e : Event) :
    (d.step capacity e).Disciplined s₀ capacity := by
  cases e with
  | save m => exact (h.put hc m).notify _
  | put m => exact h.put hc m
  | notify n => exact h.notify n
  | deliver m => exact h.deliver m
  | choose =>
    simp only [Desk.step]
    split
    · rename_i hs
      exact h.choose (by rw [hs]; rfl)
    · exact h
  | look =>
    simp only [Desk.step]
    split
    · rename_i hs
      exact h.look (by rw [hs]; rfl)
    · exact h
  | poll =>
    simp only [Desk.step]
    split
    · rename_i hs
      refine h.poll (h.told ?_) ?_
      · rcases hs with hs | hs <;> rw [hs] <;> rfl
      · rcases hs with hs | hs <;> rw [hs] <;> rfl
    · exact h
  | finish =>
    simp only [Desk.step]
    split
    · rename_i m hs
      exact h.finish hs
    · exact h
  | resume =>
    simp only [Desk.step]
    split
    · exact h.resume ‹_›
    · exact h

/-- **Who waits without a call has overlooked nothing.** -/
theorem Disciplined.waiting (h : d.Disciplined s₀ capacity) (hw : d.stance = .waiting false) :
    d.ready = [] ∧ d.inbox.live = [] := by
  obtain ⟨hpermit, hlive⟩ := h.called hw
  refine ⟨?_, hlive⟩
  by_contra hne
  exact absurd (h.told (by rw [hw]; rfl) hne) (by simp [hpermit])

theorem disciplined_run (s₀ : Synchronizer) (hc : 1 ≤ capacity) (es : List Event) :
    ((new s₀).run capacity es).Disciplined s₀ capacity := by
  induction es using List.reverseRecOn with
  | nil => exact disciplined_new s₀ capacity
  | append_singleton es e ih =>
    rw [run_concat]
    exact ih.step hc e

/-! ## What comes in -/

theorem arrivals_look : d.look.journal.arrivals = d.journal.arrivals := by
  unfold look
  split <;> rfl

theorem arrivals_poll : d.poll.journal.arrivals = d.journal.arrivals := by
  unfold poll
  split
  · rfl
  · split <;> rfl

theorem arrivals_choose : d.choose.journal.arrivals = d.journal.arrivals := by
  unfold choose
  split
  · exact arrivals_poll
  · exact arrivals_look

/-- The journal has all that is saved and delivered, and the task adds nothing to it. -/
theorem arrivals_step (capacity : Nat) (d : Desk) (e : Event) :
    (d.step capacity e).journal.arrivals = (d.journal.saved ++ e.saved?.toList,
      d.journal.delivered ++ e.delivered?.toList) := by
  have hown {d' : Desk} (h : d'.journal.arrivals = d.journal.arrivals) :
      d'.journal.arrivals = (d.journal.saved ++ [], d.journal.delivered ++ []) := by
    rw [h, List.append_nil, List.append_nil]
    rfl
  cases e with
  | save m =>
    simp only [step, save, journal_notify]
    exact Prod.ext rfl (List.append_nil _).symm
  | put m => exact Prod.ext rfl (List.append_nil _).symm
  | deliver m => exact Prod.ext (List.append_nil _).symm rfl
  | notify n => exact hown (congrArg Journal.arrivals (journal_notify n))
  | choose =>
    refine hown ?_
    simp only [step]
    split
    · exact arrivals_choose
    · rfl
  | look =>
    refine hown ?_
    simp only [step]
    split
    · exact arrivals_look
    · rfl
  | poll =>
    refine hown ?_
    simp only [step]
    split
    · exact arrivals_poll
    · rfl
  | finish =>
    refine hown ?_
    simp only [step, finish]
    split <;> rfl
  | resume =>
    refine hown ?_
    simp only [step]
    split <;> rfl

/-- **Whatever is saved and delivered is in the journal, in this order.** -/
theorem arrivals_run (s₀ : Synchronizer) (capacity : Nat) (es : List Event) :
    ((new s₀).run capacity es).journal.arrivals =
      (es.filterMap (·.saved?), es.filterMap (·.delivered?)) := by
  induction es using List.reverseRecOn with
  | nil => rfl
  | append_singleton es e ih =>
    obtain ⟨hsaved, hdelivered⟩ := Prod.mk.inj ih
    rw [run_concat, arrivals_step, hsaved, hdelivered]
    simp only [List.filterMap_append]
    cases e <;> rfl

/-! ## Saves that nobody interrupts -/

/-- If a message is taken between `d` and `d'`, it is noted down with what waited at `d`. -/
def Notes (d d' : Desk) : Prop :=
  d'.journal.taken = d.journal.taken ∨ ∃ x : Taking, d'.journal.taken = d.journal.taken ++ [x] ∧
    x.backlog = d.inbox.saved ∧ x.ready = d.ready

theorem notes_look (d : Desk) : d.Notes d.look := by
  unfold look
  split
  · exact .inl rfl
  · exact .inr ⟨_, rfl, rfl, rfl⟩

theorem notes_poll (d : Desk) : d.Notes d.poll := by
  unfold poll
  split
  · exact .inl rfl
  · split
    · exact .inl rfl
    · exact .inr ⟨_, rfl, rfl, rfl⟩

theorem notes_choose (d : Desk) : d.Notes d.choose := by
  unfold choose
  split
  · exact notes_poll { d with permit := false }
  · exact notes_look d

theorem notes_step (capacity : Nat) (d : Desk) (e : Event) : d.Notes (d.step capacity e) := by
  have hnone {d' : Desk} (h : d'.journal.taken = d.journal.taken) : d.Notes d' := .inl h
  cases e with
  | save m =>
    refine hnone ?_
    simp only [step, save, journal_notify]
    rfl
  | notify n => exact hnone (congrArg Journal.taken (journal_notify n))
  | put m | deliver m => exact hnone rfl
  | choose =>
    simp only [step]
    split
    · exact notes_choose d
    · exact hnone rfl
  | look =>
    simp only [step]
    split
    · exact notes_look d
    · exact hnone rfl
  | poll =>
    simp only [step]
    split
    · exact notes_poll d
    · exact hnone rfl
  | finish =>
    refine hnone ?_
    simp only [step, finish]
    split <;> rfl
  | resume =>
    refine hnone ?_
    simp only [step]
    split <;> rfl

theorem halfway_notify (n : Nat) : (d.notify n).halfway = d.halfway.erase n := by
  unfold notify
  split
  · split <;> rfl
  · rename_i hn
    exact (List.erase_of_not_mem hn).symm

theorem halfway_look : d.look.halfway = d.halfway := by
  unfold look
  split <;> rfl

theorem halfway_poll : d.poll.halfway = d.halfway := by
  unfold poll
  split
  · rfl
  · split <;> rfl

theorem halfway_choose : d.choose.halfway = d.halfway := by
  unfold choose
  split
  · exact halfway_poll
  · exact halfway_look

/-- Only the first half of a save leaves a save halfway. -/
theorem halfway_step {e : Event} (he : e.isPut = false) (hd : d.halfway = []) :
    (d.step capacity e).halfway = [] := by
  cases e with
  | put m => exact absurd he (by simp [Event.isPut])
  | save m =>
    refine (halfway_notify _).trans ?_
    simp [put, hd]
  | notify n =>
    refine (halfway_notify n).trans ?_
    rw [hd, List.erase_nil]
  | deliver m => exact hd
  | choose =>
    simp only [step]
    split
    · exact halfway_choose.trans hd
    · exact hd
  | look =>
    simp only [step]
    split
    · exact halfway_look.trans hd
    · exact hd
  | poll =>
    simp only [step]
    split
    · exact halfway_poll.trans hd
    · exact hd
  | finish =>
    simp only [step]
    split
    · exact hd
    · exact hd
  | resume =>
    simp only [step]
    split
    · exact hd
    · exact hd

/-- **Where no save is interrupted, none is ever halfway**, and whatever waits is ready. -/
theorem whole_run (s₀ : Synchronizer) (capacity : Nat) {es : List Event}
    (hes : ∀ e ∈ es, e.isPut = false) : ((new s₀).run capacity es).halfway = [] ∧
      ∀ x ∈ ((new s₀).run capacity es).journal.taken, x.ready = x.backlog := by
  induction es using List.reverseRecOn with
  | nil => exact ⟨rfl, by simp [run, new]⟩
  | append_singleton es e ih =>
    obtain ⟨hes, he⟩ := List.forall_mem_append.mp hes
    obtain ⟨hwhole, htaken⟩ := ih hes
    rw [run_concat]
    refine ⟨halfway_step (he e List.mem_cons_self) hwhole, ?_⟩
    rcases notes_step capacity ((new s₀).run capacity es) e with hsame | ⟨x, hx, hb, hr⟩
    · exact hsame ▸ htaken
    · have hall : x.ready = x.backlog := hr.trans ((ready_of_whole hwhole).trans hb.symm)
      rw [hx]
      exact List.forall_mem_append.mpr ⟨htaken, List.forall_mem_singleton.mpr hall⟩

/-! ## Everything gets done -/

/-- The turns that are left, counted from above. A save that has not given notice may make the task
look at the backlog once more, and so does the permit. -/
def rank (d : Desk) : Nat :=
  5 * d.inbox.size + 5 * d.halfway.length + 3 * d.permit.toNat + d.stance.rank

theorem rank_look (hs : d.stance = .looking) : d.look.rank < d.rank := by
  unfold look
  split
  · simp only [rank, hs, Stance.rank]
    omega
  · rename_i m rest hcons
    simp only [rank, hs, Stance.rank, Inbox.size, hcons, List.length_cons]
    omega

theorem rank_poll (hs : d.stance.rank = 1) : d.poll.rank < d.rank := by
  unfold poll
  split
  · rename_i hpermit
    simp only [rank, hs, hpermit, Bool.toNat_true, Bool.toNat_false]
    simp only [Stance.rank]
    omega
  · split
    · simp only [rank, hs]
      simp only [Stance.rank, Bool.toNat_false]
      omega
    · rename_i m rest hcons
      simp only [rank, hs, Inbox.size, hcons, List.length_cons]
      simp only [Stance.rank]
      omega

theorem rank_finish (hs : d.stance = .busy m) : (d.finish m).rank < d.rank := by
  simp only [finish, rank, hs]
  split <;> simp only [Stance.rank] <;> omega

/-- **As long as the task does not wait in vain, there is something to do.** -/
theorem exists_rank_lt (capacity : Nat) (h : ¬ (d.stance = .waiting false ∧ d.halfway = [])) :
    ∃ e : Event, e.isOwn = true ∧ (d.step capacity e).rank < d.rank := by
  cases hs : d.stance with
  | looking =>
    refine ⟨.look, rfl, ?_⟩
    simpa only [step, hs, if_true] using rank_look hs
  | turning =>
    refine ⟨.poll, rfl, ?_⟩
    simpa only [step, hs, true_or, if_true] using rank_poll (d := d) (by rw [hs]; rfl)
  | waiting called =>
    cases called with
    | true =>
      refine ⟨.poll, rfl, ?_⟩
      simpa only [step, hs, or_true, if_true] using rank_poll (d := d) (by rw [hs]; rfl)
    | false =>
      obtain ⟨n, hn⟩ := List.exists_mem_of_ne_nil d.halfway fun hnil => h ⟨hs, hnil⟩
      have hlength := List.length_erase_of_mem hn
      have hpos := List.length_pos_of_mem hn
      refine ⟨.notify n, rfl, ?_⟩
      simp only [step, notify, hn, if_true, rank, hs, hlength, Stance.rank, Bool.toNat_false]
      omega
  | busy m =>
    refine ⟨.finish, rfl, ?_⟩
    simpa only [step, hs] using rank_finish hs
  | pausing =>
    refine ⟨.resume, rfl, ?_⟩
    simp only [step, hs, if_true, rank, Stance.rank]
    omega

/-- All is done: nothing waits for the task, and it waits for nothing that is due. -/
structure Done (d : Desk) : Prop where
  waits : d.stance = .waiting false
  whole : d.halfway = []
  saved : d.inbox.saved = []
  live : d.inbox.live = []

/-- **A task that is left alone gets everything done.** -/
theorem exists_done (h : d.Disciplined s₀ capacity) (hc : 1 ≤ capacity) :
    ∃ es : List Event, (∀ e ∈ es, e.isOwn = true) ∧ (d.run capacity es).Done := by
  -- on the turns that are left
  induction hr : d.rank using Nat.strong_induction_on generalizing d with
  | _ n ih =>
    by_cases hdone : d.stance = .waiting false ∧ d.halfway = []
    · obtain ⟨hready, hlive⟩ := h.waiting hdone.1
      exact ⟨[], by simp, hdone.1, hdone.2, (ready_of_whole hdone.2).symm.trans hready, hlive⟩
    · obtain ⟨e, hown, hlt⟩ := exists_rank_lt capacity hdone
      obtain ⟨es, hes, hall⟩ := ih _ (hr ▸ hlt) (h.step hc e) rfl
      exact ⟨e :: es, List.forall_mem_cons.mpr ⟨hown, hes⟩, hall⟩

/-- **A save that is interrupted does not come first yet.** The task has found the backlog empty, a
message is put down, and before its save gives notice, the task is called for a live message. -/
theorem taken_before_notice (s₀ : Synchronizer) (capacity : Nat) (saved live : Message) :
    ((new s₀).run capacity [.choose, .put saved, .deliver live, .poll]).journal.taken =
      [⟨live, false, [saved], []⟩] := by
  cases capacity with
  | zero => rfl
  | succ n => rfl

end Desk

end BookFeed
