import BookFeed.Proofs.UserStream.Listeners
import Mathlib.Data.List.Induction
import Mathlib.Data.List.Nodup
import Mathlib.Data.List.Perm.Basic

/-!
# Events are delivered once and in order

A payload is in one place at a time: in the feed, in the hands of the task that has the feed, among
the events, or with the reader. `Inv` says that these places, put one after the other, hold what was
sent, and that no task but the current one has not been told to go. Every event keeps this.

* `Inv.step`: what every event keeps;
* **`delivered_once_in_order`**: what was read and what can be read are what was sent first, in
  order, and all of it once the listener has nothing left to do.
-/

namespace BookFeed.UserStream.System

variable {s : System} {t : Task} {tasks tasks' : List Task} {current : Option Nat} {spawned : Nat}

/-! ## Who has been told to go -/

/-- Tasks have ids of their own, and the current one is the only one not told to go. -/
structure Roster (tasks : List Task) (current : Option Nat) (spawned : Nat) : Prop where
  fresh : ∀ t ∈ tasks, t.id < spawned
  distinct : (tasks.map (·.id)).Nodup
  owned : ∀ t ∈ tasks, t.aborted = false ↔ current = some t.id

theorem Roster.perm (h : Roster tasks current spawned) (hp : tasks'.Perm tasks) :
    Roster tasks' current spawned where
  fresh t ht := h.fresh t (hp.mem_iff.mp ht)
  distinct := (hp.map _).nodup_iff.mpr h.distinct
  owned t ht := h.owned t (hp.mem_iff.mp ht)

theorem Roster.sublist (h : Roster tasks current spawned) (hs : tasks'.Sublist tasks) :
    Roster tasks' current spawned where
  fresh t ht := h.fresh t (hs.subset ht)
  distinct := h.distinct.sublist (hs.map _)
  owned t ht := h.owned t (hs.subset ht)

@[simp] theorem id_abort (current : Option Nat) (t : Task) : (t.abort current).id = t.id := by
  unfold Task.abort
  split <;> rfl

/-- When the current task is told to go, there is none that was not. -/
theorem Roster.aborted (h : Roster tasks current spawned)
    (ht : t ∈ tasks.map (Task.abort current)) : t.aborted = true := by
  obtain ⟨t₀, ht₀, rfl⟩ := List.mem_map.mp ht
  unfold Task.abort
  split
  · rfl
  · rename_i hne
    rw [← Bool.not_eq_false]
    exact fun hn => hne ((h.owned t₀ ht₀).mp hn)

/-- **A listener that is stopped leaves no task that was not told to go.** -/
theorem Roster.abort (h : Roster tasks current spawned) :
    Roster (tasks.map (Task.abort current)) none spawned where
  fresh t ht := by
    obtain ⟨t₀, ht₀, rfl⟩ := List.mem_map.mp ht
    rw [id_abort]
    exact h.fresh t₀ ht₀
  distinct := by
    have hid : (tasks.map (Task.abort current)).map (·.id) = tasks.map (·.id) := by
      rw [List.map_map]
      exact List.map_congr_left fun t _ => id_abort current t
    rw [hid]
    exact h.distinct
  owned t ht := by
    rw [h.aborted ht]
    exact ⟨fun hn => absurd hn (by simp), fun hn => absurd hn (by simp)⟩

/-- The task spawned next becomes the current one. -/
theorem Roster.spawn (h : Roster tasks none spawned) :
    Roster (tasks ++ [⟨spawned, false⟩]) (some spawned) (spawned + 1) where
  fresh t ht := by
    rcases List.mem_append.mp ht with ht | ht
    · exact Nat.lt_succ_of_lt (h.fresh t ht)
    · exact (List.mem_singleton.mp ht) ▸ Nat.lt_succ_self _
  distinct := by
    rw [List.map_append, List.nodup_append]
    refine ⟨h.distinct, List.nodup_singleton _, fun id hid id' hid' => ?_⟩
    obtain ⟨t, ht, rfl⟩ := List.mem_map.mp hid
    obtain rfl := List.mem_singleton.mp hid'
    exact Nat.ne_of_lt (h.fresh t ht)
  owned t ht := by
    rcases List.mem_append.mp ht with ht | ht
    · rw [h.owned t ht]
      simp only [Option.some.injEq, reduceCtorEq, false_iff]
      exact Nat.ne_of_gt (h.fresh t ht)
    · obtain rfl := List.mem_singleton.mp ht
      exact ⟨fun _ => rfl, fun _ => rfl⟩

/-- No more than one task has not been told to go. -/
theorem Roster.length_le (h : Roster tasks current spawned) :
    (tasks.filter (!·.aborted)).length ≤ 1 := by
  have hids : ∀ id ∈ (tasks.filter (!·.aborted)).map (·.id), id = current.getD 0 := by
    intro id hid
    obtain ⟨t, ht, rfl⟩ := List.mem_map.mp hid
    obtain ⟨ht, hlive⟩ := List.mem_filter.mp ht
    rw [(h.owned t ht).mp (by simpa using hlive), Option.getD_some]
  have hnodup : ((tasks.filter (!·.aborted)).map (·.id)).Nodup :=
    h.distinct.sublist (List.filter_sublist.map _)
  rw [List.eq_replicate_of_mem hids, List.nodup_replicate, List.length_map] at hnodup
  exact hnodup

theorem Roster.of_gone (h : Roster tasks current spawned) (hp : (t :: tasks').Perm tasks) :
    Roster tasks' current spawned := (h.perm hp).sublist (List.sublist_cons_self ..)

/-- When the current task returns, everyone who is left was told to go. -/
theorem Roster.aborted_of_current (h : Roster (t :: tasks) (some t.id) spawned)
    {t' : Task} (ht' : t' ∈ tasks) : t'.aborted = true := by
  rw [← Bool.not_eq_false, h.owned t' (List.mem_cons_of_mem _ ht')]
  intro hid
  have hnodup := List.nodup_cons.mp h.distinct
  exact hnodup.1 (List.mem_map.mpr ⟨t', ht', (Option.some.inj hid).symm⟩)

/-! ## What every event keeps -/

/-- What the task has in its hands that has the feed. -/
def inHand (s : System) : List Json.Value := (s.holder.bind (·.payload)).toList

/-- What every event keeps. -/
structure Inv (s : System) : Prop where
  roster : Roster s.tasks s.current s.spawned
  listening : s.stream.listener = some .listening ↔ ∃ t ∈ s.tasks, t.aborted = false
  leaving : s.stream.leaving = s.tasks.any (·.aborted)
  kept : s.stream.dropped = false
  /-- every payload is in one place -/
  told : s.read ++ s.stream.events ++ s.inHand ++ s.stream.feed = s.sent

/-- The start: nobody listens, and nothing was sent. -/
theorem Inv.fresh (exchange : String) : Inv { stream := { exchange } } where
  roster := ⟨by simp [tasks], by simp [tasks], by simp [tasks]⟩
  listening := by simp [tasks]
  leaving := rfl
  kept := rfl
  told := rfl

@[simp] theorem tasks_abort (s : System) : s.abort.tasks = s.tasks.map (Task.abort s.current) := by
  cases hh : s.holder <;> simp [tasks, abort, hh]

@[simp] theorem inHand_abort (s : System) : s.abort.inHand = s.inHand := by
  cases hh : s.holder <;> simp [inHand, abort, hh]

/-- Those who were listening are leaving now. -/
theorem Inv.leaving_stop (h : s.Inv) :
    s.stream.stop.leaving = (s.tasks.map (Task.abort s.current)).any (·.aborted) := by
  have hleft : s.stream.stop.leaving = true ↔ ∃ t, t ∈ s.tasks := by
    show (s.stream.leaving || s.stream.listener == some .listening) = true ↔ _
    rw [Bool.or_eq_true, beq_iff_eq, h.leaving, h.listening, List.any_eq_true]
    refine ⟨fun hor => ?_, fun ⟨t, ht⟩ => ?_⟩
    · obtain ⟨t, ht, -⟩ | ⟨t, ht, -⟩ := hor
      · exact ⟨t, ht⟩
      · exact ⟨t, ht⟩
    · cases hlive : t.aborted with
      | true => exact .inl ⟨t, ht, hlive⟩
      | false => exact .inr ⟨t, ht, hlive⟩
  rw [Bool.eq_iff_iff, hleft, List.any_eq_true]
  refine ⟨fun ⟨t, ht⟩ => ?_, fun ⟨t, ht, _⟩ => ?_⟩
  · exact ⟨_, List.mem_map_of_mem ht, h.roster.aborted (List.mem_map_of_mem ht)⟩
  · obtain ⟨t₀, ht₀, -⟩ := List.mem_map.mp ht
    exact ⟨t₀, ht₀⟩

theorem Inv.stop (h : s.Inv) : (s.step .stop).Inv where
  roster := by
    have := h.roster.abort
    rwa [← tasks_abort] at this
  listening := by
    refine ⟨fun hn => absurd hn (by simp [step, UserStream.stop]), fun ⟨t, ht, hlive⟩ => ?_⟩
    have ht' : t ∈ s.abort.tasks := ht
    rw [tasks_abort] at ht'
    exact absurd hlive (by simp [h.roster.aborted ht'])
  leaving := by
    have := h.leaving_stop
    rwa [← tasks_abort] at this
  kept := h.kept
  told := by
    have hin : (s.step .stop).inHand = s.inHand := inHand_abort s
    rw [hin]
    exact h.told

theorem Inv.start (h : s.Inv) : (s.step .start).Inv := by
  have htasks : (s.step .start).tasks =
      s.tasks.map (Task.abort s.current) ++ [⟨s.spawned, false⟩] := by
    rw [← tasks_abort]
    exact (List.append_assoc ..).symm
  have hin : (s.step .start).inHand = s.inHand := inHand_abort s
  refine ⟨?_, ?_, ?_, h.kept, ?_⟩
  · rw [htasks]
    exact h.roster.abort.spawn
  · rw [htasks]
    exact ⟨fun _ => ⟨_, List.mem_append_right _ (List.mem_singleton_self _), rfl⟩, fun _ => rfl⟩
  · rw [htasks, List.any_append, ← h.leaving_stop]
    exact (Bool.or_false _).symm
  · rw [hin]
    exact h.told

theorem Inv.send (h : s.Inv) (payload : Json.Value) : (s.step (.send payload)).Inv := by
  simp only [step]
  split
  · rename_i stream hsend
    unfold UserStream.send at hsend
    split at hsend
    · cases hsend
    · obtain rfl := Except.ok.inj hsend
      refine { h with told := ?_ }
      rw [← h.told]
      exact (List.append_assoc ..).symm
  · exact h

theorem Inv.read (h : s.Inv) : (s.step .read).Inv := by
  simp only [step]
  split
  · rename_i stream event hnext
    unfold UserStream.next? at hnext
    split at hnext
    · cases hnext
    · rename_i event' events hevents
      obtain ⟨rfl, hevent⟩ := Prod.mk.inj hnext
      obtain rfl := Option.some.inj hevent
      refine { h with told := ?_ }
      rw [← h.told, hevents]
      simp [inHand]
  · exact h

theorem Inv.enter (h : s.Inv) (i : Nat) : (s.step (.enter i)).Inv := by
  simp only [step]
  split
  · rename_i t hfree hi
    obtain ⟨hlen, rfl⟩ := List.getElem?_eq_some_iff.mp hi
    have hp : (s.waiting[i] :: s.waiting.eraseIdx i).Perm s.tasks := by
      simpa [tasks, hfree] using List.getElem_cons_eraseIdx_perm hlen
    refine ⟨h.roster.perm hp, ?_, ?_, h.kept, ?_⟩
    · rw [h.listening]
      exact exists_congr fun t => and_congr_left' hp.mem_iff.symm
    · rw [h.leaving]
      exact hp.symm.any_eq
    · have := h.told
      simpa [inHand, hfree] using this
  · exact h

/-- Who goes was told to: the others are those who were there before. -/
theorem Inv.listening_of_gone (h : s.Inv) (hp : (t :: tasks').Perm s.tasks)
    (ht : t.aborted = true) :
    s.stream.listener = some .listening ↔ ∃ t ∈ tasks', t.aborted = false := by
  rw [h.listening]
  refine ⟨fun ⟨t', ht', hlive⟩ => ?_, fun ⟨t', ht', hlive⟩ =>
    ⟨t', hp.mem_iff.mp (List.mem_cons_of_mem _ ht'), hlive⟩⟩
  rcases List.mem_cons.mp (hp.mem_iff.mpr ht') with rfl | ht'
  · exact absurd hlive (by simp [ht])
  · exact ⟨t', ht', hlive⟩

theorem Inv.leave (h : s.Inv) (i : Nat) : (s.step (.leave i)).Inv := by
  simp only [step]
  split
  · rename_i t hi
    split
    · rename_i ht
      obtain ⟨hlen, rfl⟩ := List.getElem?_eq_some_iff.mp hi
      have hp : (s.waiting[i] :: ({ s with waiting := s.waiting.eraseIdx i } : System).tasks).Perm
          s.tasks :=
        List.perm_middle.symm.trans ((List.getElem_cons_eraseIdx_perm hlen).append_left _)
      exact ⟨h.roster.of_gone hp, h.listening_of_gone hp ht, rfl, h.kept, h.told⟩
    · exact h
  · exact h

theorem Inv.release (h : s.Inv) : (s.step .release).Inv := by
  simp only [step]
  split
  · rename_i t hh
    split
    · rename_i ht
      have hp : (t :: ({ s with holder := none } : System).tasks).Perm s.tasks := by
        simp [tasks, hh]
      refine ⟨h.roster.of_gone hp, h.listening_of_gone hp ht, rfl, h.kept, ?_⟩
      have := h.told
      simpa [depart, inHand, hh] using this
    · exact h
  · exact h

/-- At the end of the feed the task that has it returns. -/
theorem Inv.finish (hs : s.Inv) (hh : s.holder = some ⟨t, none⟩) :
    (({ s with
        stream.listener :=
          if s.current = some t.id then some .finished else s.stream.listener
        holder := none } : System).depart).Inv := by
  have hp : (t :: s.waiting).Perm s.tasks := by simp [tasks, hh]
  refine ⟨hs.roster.of_gone hp, ?_, rfl, hs.kept, ?_⟩
  · show (if s.current = some t.id then some .finished else s.stream.listener) = _ ↔
      ∃ t ∈ s.waiting, t.aborted = false
    split
    · -- the listener returns, and is not replaced by one of those that wait
      rename_i hcurrent
      refine ⟨fun hn => absurd hn (by simp), fun ⟨t', ht', hlive⟩ => ?_⟩
      have := (hcurrent ▸ hs.roster.perm hp).aborted_of_current ht'
      exact absurd hlive (by simp [this])
    · rename_i hother
      have ht : t ∈ s.tasks := hp.mem_iff.mp List.mem_cons_self
      refine hs.listening_of_gone hp ?_
      rw [← Bool.not_eq_false, hs.roster.owned t ht]
      exact hother
  · have := hs.told
    simpa [depart, inHand, hh] using this

theorem Inv.resume {h : Holder} (hs : s.Inv) (hh : s.holder = some h) : (s.resume h).Inv := by
  obtain ⟨t, inHand?⟩ := h
  have htold := hs.told
  unfold System.resume
  split
  · rename_i payload hpayload
    obtain rfl : inHand? = some payload := hpayload
    refine ⟨?_, ?_, ?_, hs.kept, ?_⟩
    · simpa [tasks, hh] using hs.roster
    · simpa [tasks, hh] using hs.listening
    · simpa [tasks, hh] using hs.leaving
    · simpa [inHand, hh] using htold
  · rename_i payload feed hnone hfeed
    obtain rfl : inHand? = none := hnone
    refine ⟨?_, ?_, ?_, hs.kept, ?_⟩
    · simpa [tasks, hh] using hs.roster
    · simpa [tasks, hh] using hs.listening
    · simpa [tasks, hh] using hs.leaving
    · simpa [inHand, hh, hfeed] using htold
  · rename_i hnone hfeed
    obtain rfl : inHand? = none := hnone
    split
    · exact hs.finish hh
    · exact hs

theorem Inv.hold (hs : s.Inv) : (s.step .hold).Inv := by
  simp only [step]
  split
  · rename_i h hh
    exact hs.resume hh
  · exact hs

/-- **Every event keeps every payload in one place, and one listener at most.** -/
theorem Inv.step (h : s.Inv) (e : Event) : (s.step e).Inv := by
  cases e with
  | start => exact h.start
  | stop => exact h.stop
  | send payload => exact h.send payload
  | closeFeed => exact { h with }
  | read => exact h.read
  | enter i => exact h.enter i
  | hold => exact h.hold
  | leave i => exact h.leave i
  | release => exact h.release

theorem Inv.run (h : s.Inv) (es : List Event) : (s.run es).Inv := by
  induction es using List.reverseRecOn with
  | nil => exact h
  | append_singleton es e ih =>
    rw [run_append]
    exact ih.step e

/-! ## The stream as a whole -/

/-- What is sent is accepted, as long as the stream is not dropped. -/
theorem Inv.sent_step (h : s.Inv) (e : Event) : (s.step e).sent = s.sent ++ e.payload?.toList := by
  cases e with
  | send payload => simp [System.step, UserStream.send, h.kept, Event.payload?]
  | start | stop | closeFeed => exact (List.append_nil _).symm
  | hold | read | enter | release | leave =>
    simp only [System.step, System.resume, depart, Event.payload?, Option.toList_none, List.append_nil]
    repeat' split
    all_goals rfl

theorem Inv.sent_run (h : s.Inv) (es : List Event) :
    (s.run es).sent = s.sent ++ es.filterMap Event.payload? := by
  induction es using List.reverseRecOn with
  | nil => exact (List.append_nil _).symm
  | append_singleton es e ih =>
    rw [run_append, List.filterMap_append, ← List.append_assoc, ← ih]
    refine ((h.run es).sent_step e).trans ?_
    cases he : e.payload? <;> simp [he]

/-- At rest, nobody is left who was told to go. -/
theorem AtRest.aborted (h : s.AtRest) (ht : t ∈ s.tasks) : t.aborted = false := by
  rw [← Bool.not_eq_true]
  intro hgo
  rcases List.mem_append.mp ht with ht | ht
  · obtain ⟨⟨t', payload?⟩, hh, rfl⟩ : ∃ h, s.holder = some h ∧ h.task = t := by simpa using ht
    cases payload? with
    | none =>
      have hgo : t'.aborted = true := hgo
      have := congrArg (·.holder) (h .release rfl)
      simp [System.step, hh, hgo, depart] at this
    | some payload =>
      have := congrArg (·.holder) (h .hold rfl)
      simp [System.step, hh, resume] at this
  · obtain ⟨i, hi⟩ := List.mem_iff_getElem?.mp ht
    have hlen := (List.getElem?_eq_some_iff.mp hi).1
    have := congrArg (·.waiting.length) (h (.leave i) rfl)
    simp only [System.step, hi, hgo, if_true, depart, List.length_eraseIdx_of_lt hlen] at this
    omega

/-- Whoever has the feed, or could have it, has left nothing in it. -/
theorem Idle.nothing_left (h : s.Idle) (ht : t ∈ s.tasks) : s.inHand = [] ∧ s.stream.feed = [] := by
  cases hh : s.holder with
  | none =>
    -- then the task could get it
    have hw : t ∈ s.waiting := by simpa [tasks, hh] using ht
    obtain ⟨i, hi⟩ := List.mem_iff_getElem?.mp hw
    have := congrArg (·.holder) (h.2 i)
    simp [System.step, hh, hi] at this
  | some held =>
    obtain ⟨t', payload?⟩ := held
    cases payload? with
    | some payload =>
      have := congrArg (·.holder) h.1
      simp [System.step, hh, resume] at this
    | none =>
      refine ⟨by simp [inHand, hh], ?_⟩
      cases hfeed : s.stream.feed with
      | nil => rfl
      | cons payload feed =>
        have := congrArg (·.holder) h.1
        simp [System.step, hh, resume, hfeed] at this

/-- **What was read and what can be read are what was sent first, each payload once and in order.**
No more than one task is not on its way out, and tasks that are left alone come to rest: then the
others have gone. A stream that runs has queued all that was sent when its tasks find nothing to
do. -/
theorem delivered_once_in_order (exchange : String) (es : List Event) :
    let s := System.run { stream := { exchange } } es
    let sent := es.filterMap Event.payload?
    (s.read ++ s.stream.events) <+: sent ∧
      s.live.length ≤ 1 ∧
      (s.AtRest → s.tasks = s.live) ∧
      (∃ es' : List Event, (∀ e ∈ es', e.isTask = true) ∧ (s.run es').AtRest) ∧
      (s.stream.isRunning = true → s.Idle → s.read ++ s.stream.events = sent) := by
  intro s sent
  have hinv : s.Inv := (Inv.fresh exchange).run es
  have hsent : s.read ++ s.stream.events ++ s.inHand ++ s.stream.feed = sent :=
    hinv.told.trans ((Inv.fresh exchange).sent_run es)
  refine ⟨?_, hinv.roster.length_le, fun hrest => ?_, exists_atRest s, fun hrunning hidle => ?_⟩
  · rw [List.append_assoc] at hsent
    exact ⟨_, hsent⟩
  · refine (List.filter_eq_self.mpr fun t ht => ?_).symm
    rw [hrest.aborted ht]
    rfl
  · obtain ⟨t, ht, -⟩ := hinv.listening.mp (beq_iff_eq.mp hrunning)
    obtain ⟨hin, hfeed⟩ := hidle.nothing_left ht
    rwa [hin, hfeed, List.append_nil, List.append_nil] at hsent

/-- A stream is started again while the listener before has a payload in its hands and another one
is in the feed. The first listener queues what it has and goes, and the second does the rest. -/
theorem delivered_once_in_order_restarted :
    let es : List Event := [.start, .enter 0, .send .null, .send (.bool true), .hold, .start, .hold,
      .release, .enter 0, .read, .hold, .hold]
    let s := System.run { stream := { exchange := "BITRUE" } } es
    s.read = [.null] ∧ s.stream.events = [.bool true] ∧ s.tasks.length = 1 ∧
      s.read ++ s.stream.events = es.filterMap Event.payload? := by
  intro es s
  exact ⟨rfl, rfl, rfl,
    (delivered_once_in_order "BITRUE" es).2.2.2.2 rfl ⟨rfl, fun _ => rfl⟩⟩

end BookFeed.UserStream.System
