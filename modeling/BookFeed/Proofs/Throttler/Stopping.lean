import BookFeed.Proofs.Throttler.Queue
import Mathlib.Algebra.BigOperators.Group.List.Basic
import Mathlib.Data.List.Induction

/-!
# A stop is final and prompt

A request waits for no longer than the retry interval before it looks again whether the throttler is
stopped. `Turn` lists what a queue is used for, and beside that what its requests do one by one: a
request whose pause is over may make its attempt before or after others that are due, and time
passes only up to what is due next. So turns are the schedules in which timers are exact and each
attempt is one step. `Paced` says that all requests that wait are due within the next interval, and
`Wound` what can be left of a queue after a stop.

* `Paced.turn`: every turn keeps the pace;
* `Wound.turn`: after a stop every turn answers requests with a cancellation, and charges nothing;
* **`stop_final_prompt`**: so nothing is admitted any more, and who waits at the stop has been told
  so when the retry interval is over.
-/

namespace BookFeed

theorem Timer.mem_insert {α : Type} {x y : Timer α} {ts : List (Timer α)} :
    y ∈ Timer.insert x ts ↔ y = x ∨ y ∈ ts :=
  (Throttler.insert_perm x ts).mem_iff.trans List.mem_cons

theorem Timer.sorted_insert {α : Type} (x : Timer α) {ts : List (Timer α)}
    (h : ts.Pairwise (·.due ≤ ·.due)) : (Timer.insert x ts).Pairwise (·.due ≤ ·.due) := by
  induction ts with
  | nil => exact List.pairwise_singleton _ _
  | cons y ys ih =>
    obtain ⟨hy, hys⟩ := List.pairwise_cons.mp h
    rw [Timer.insert]
    split
    · rename_i hle
      refine List.pairwise_cons.mpr ⟨fun z hz => ?_, ih hys⟩
      rcases Timer.mem_insert.mp hz with rfl | hz
      · exact hle
      · exact hy z hz
    · rename_i hlt
      refine List.pairwise_cons.mpr ⟨fun z hz => ?_, h⟩
      rcases List.mem_cons.mp hz with rfl | hz
      · omega
      · have := hy z hz
        omega

namespace Throttler

/-- What happens to a queue next. Requests are named by their place among those that wait. -/
inductive Queue.Turn where
  /-- someone calls, and makes a first attempt -/
  | request (path : String)
  /-- a request whose pause is over makes its next attempt -/
  | retry (i : Nat)
  /-- time passes, if nothing is due before it has -/
  | pass (nanos : Nat)
  | spawn (path : String) (n : Nat)
  /-- someone calls, and waits so long -/
  | acquire (path : String) (maxWait : Nat)
  | advance (nanos : Nat)
  | stop

/-- How many calls the turn makes. -/
def Queue.Turn.calls : Queue.Turn → Nat
  | request _ | acquire _ _ => 1
  | spawn _ n => n
  | retry _ | pass _ | advance _ | stop => 0

namespace Queue

/-- What cannot happen changes nothing. -/
def turn (q : Queue) : Turn → Queue
  | .request path => q.submit ⟨path, q.now⟩
  | .retry i =>
    match q.waiting[i]? with
    | none => q
    | some w =>
      if w.due ≤ q.now then
        ({ q with waiting := q.waiting.eraseIdx i } : Queue).submit w.task
      else q
  | .pass nanos =>
    if ∀ w ∈ q.waiting, q.now + nanos ≤ w.due then { q with now := q.now + nanos } else q
  | .spawn path n => q.spawn path n
  | .acquire path maxWait => (q.acquire path maxWait).1.finish (q.acquire path maxWait).2
  | .advance nanos => q.advance (q.now + nanos)
  | .stop => { q with throttler := q.throttler.stop }

def turns (q : Queue) (us : List Turn) : Queue := us.foldl turn q

theorem turns_concat (q : Queue) (us : List Turn) (u : Turn) :
    q.turns (us ++ [u]) = (q.turns us).turn u := List.foldl_concat ..

end Queue

variable {t t' : Throttler} {q q₀ : Queue} {pause target now n : Nat} {path : String}
  {r : Request} {w : Timer Request} {rest : List (Timer Request)}

/-! ## Attempts -/

theorem retry_attempt (t : Throttler) (now : Nat) (path : String) :
    (t.attempt now path).1.retry = t.retry := by
  have h := attempt_attempted t now path
  generalize t.attempt now path = done at h ⊢
  obtain ⟨t', a⟩ := done
  cases h <;> rfl

/-- After a stop every attempt is cancelled, whatever its path, and charges nothing. -/
theorem attempt_of_stopped (h : t.stopped = true) (now : Nat) (path : String) :
    t.attempt now path = (t, .cancelled) := if_pos h

/-- Letting time pass makes attempts that are due, first things first, until the next one is not. -/
theorem advance_keeps (target : Nat) {P : Queue → Prop}
    (hdue : ∀ {q : Queue} {w rest}, P q → q.waiting = w :: rest → w.due ≤ target →
      P (({ q with waiting := rest, now := max q.now w.due } : Queue).submit w.task))
    (hp : P q) : ∃ q', P q' ∧ (∀ w ∈ q'.waiting.head?, target < w.due) ∧
      q.advance target = { q' with now := max q'.now target } := by
  fun_induction Queue.advance q target with
  | case1 q hw =>
    refine ⟨q, hp, fun w hhead => ?_, rfl⟩
    rw [hw] at hhead
    exact absurd hhead (Option.not_mem_none w)
  | case2 q w rest hw hle now t a ht outcome ho ih =>
    have ho : a.outcome? (max q.now w.due) w.task = some outcome := ho
    have h := hdue hp hw hle
    simp only [Queue.submit] at h
    rw [ht] at h
    simp only [ho] at h
    exact ih h
  | case3 q w rest hw hle now t a ht ho ih =>
    have ho : a.outcome? (max q.now w.due) w.task = none := ho
    have h := hdue hp hw hle
    simp only [Queue.submit] at h
    rw [ht] at h
    simp only [ho] at h
    exact ih h
  | case4 q w rest hw hlt =>
    refine ⟨q, hp, fun w' hhead => ?_, rfl⟩
    rw [hw] at hhead
    exact Option.some.inj hhead ▸ Nat.lt_of_not_le hlt

/-! ## The pace of requests that wait -/

/-- The requests that wait are in the order in which they are due, none earlier than now and none
later than after the next pause. -/
structure Paced (pause : Nat) (q : Queue) : Prop where
  retry : q.throttler.retry = pause
  sorted : q.waiting.Pairwise (·.due ≤ ·.due)
  ahead : ∀ w ∈ q.waiting, q.now ≤ w.due
  soon : ∀ w ∈ q.waiting, w.due ≤ q.now + pause

theorem Paced.leave (h : Paced pause q) (hrest : rest.Sublist q.waiting) :
    Paced pause { q with waiting := rest } where
  retry := h.retry
  sorted := h.sorted.sublist hrest
  ahead w hw := h.ahead w (hrest.subset hw)
  soon w hw := h.soon w (hrest.subset hw)

theorem Paced.pass (h : Paced pause q) (hle : q.now ≤ now)
    (hahead : ∀ w ∈ q.waiting, now ≤ w.due) : Paced pause { q with now } where
  retry := h.retry
  sorted := h.sorted
  ahead := hahead
  soon w hw := (h.soon w hw).trans (Nat.add_le_add_right hle pause)

theorem Paced.attempt (h : Paced pause q) (path : String) :
    Paced pause { q with throttler := (q.throttler.attempt q.now path).1 } where
  retry := (retry_attempt _ _ _).trans h.retry
  sorted := h.sorted
  ahead := h.ahead
  soon := h.soon

/-- A request that has to wait is due after one pause. -/
theorem Paced.submit (h : Paced pause q) (r : Request) : Paced pause (q.submit r) := by
  have ha := h.attempt r.path
  unfold Queue.submit
  generalize q.throttler.attempt q.now r.path = done at ha ⊢
  obtain ⟨t, a⟩ := done
  simp only at ha ⊢
  split
  · exact ⟨ha.retry, ha.sorted, ha.ahead, ha.soon⟩
  · refine ⟨ha.retry, Timer.sorted_insert _ h.sorted, fun w hw => ?_, fun w hw => ?_⟩
    · rcases Timer.mem_insert.mp hw with rfl | hw
      · exact Nat.le_add_right _ _
      · exact h.ahead w hw
    · rcases Timer.mem_insert.mp hw with rfl | hw
      · exact (congrArg (q.now + ·) ha.retry).le
      · exact h.soon w hw

/-- The first request that waits makes its attempt when it is due. -/
theorem Paced.wake (h : Paced pause q) (hw : q.waiting = w :: rest) :
    Paced pause (({ q with waiting := rest, now := max q.now w.due } : Queue).submit w.task) := by
  have hsorted := hw ▸ h.sorted
  have hrest := h.leave (hw ▸ List.sublist_cons_self w rest)
  refine (hrest.pass (Nat.le_max_left _ _) fun w' hw' => ?_).submit w.task
  exact Nat.max_le.mpr ⟨hrest.ahead w' hw', (List.pairwise_cons.mp hsorted).1 w' hw'⟩

/-- Letting time pass leaves nothing that is due by then. -/
theorem Paced.advance (h : Paced pause q) (target : Nat) :
    Paced pause (q.advance target) ∧ ∀ w ∈ (q.advance target).waiting, target < w.due := by
  obtain ⟨q', hq', hhead, heq⟩ := advance_keeps target (P := Paced pause)
    (fun hq hw _ => hq.wake hw) h
  have hlater : ∀ w ∈ q'.waiting, target < w.due := by
    intro w hw
    have hsorted := hq'.sorted
    cases hwait : q'.waiting with
    | nil => exact absurd (hwait ▸ hw) List.not_mem_nil
    | cons w' rest =>
      rw [hwait] at hw hhead hsorted
      have hfirst := hhead w' rfl
      rcases List.mem_cons.mp hw with rfl | hw
      · exact hfirst
      · exact hfirst.trans_le ((List.pairwise_cons.mp hsorted).1 w hw)
  rw [heq]
  exact ⟨hq'.pass (Nat.le_max_left _ _) fun w hw =>
    Nat.max_le.mpr ⟨hq'.ahead w hw, (hlater w hw).le⟩, hlater⟩

theorem Paced.reach (h : Paced pause q) (hle : q.now ≤ now) : Paced pause (q.reach now) := by
  obtain ⟨hpaced, hlater⟩ := h.advance (now - 1)
  refine hpaced.pass ?_ fun w hw => ?_
  · rw [now_advance]
    omega
  · have := hlater w hw
    omega

theorem Paced.spawn (h : Paced pause q) (path : String) : ∀ n : Nat, Paced pause (q.spawn path n)
  | 0 => (h.advance q.now).1
  | n + 1 => (Paced.spawn h path n).submit _

theorem Paced.acquireUntil (h : Paced pause q) (r : Request) {deadline : Nat}
    (hle : q.now ≤ deadline) : Paced pause (q.acquireUntil r deadline).1 := by
  fun_induction Queue.acquireUntil q r deadline with
  | case1 q t a ht q' outcome ho =>
    have ha := h.attempt r.path
    rw [ht] at ha
    exact ha
  | case2 q t a ht q' ho next hnext ih =>
    have ha := h.attempt r.path
    rw [ht] at ha
    exact ih (ha.reach (Nat.le_add_right _ _)) hnext
  | case3 q t a ht q' ho next hnext =>
    have ha := h.attempt r.path
    rw [ht] at ha
    exact ha.reach hle

/-- **Every turn keeps the pace.** -/
theorem Paced.turn (h : Paced pause q) (u : Queue.Turn) : Paced pause (q.turn u) := by
  cases u with
  | request path => exact h.submit _
  | retry i =>
    simp only [Queue.turn]
    split
    · exact h
    · split
      · exact (h.leave (List.eraseIdx_sublist q.waiting i)).submit _
      · exact h
  | pass nanos =>
    simp only [Queue.turn]
    split
    · rename_i hahead
      exact h.pass (Nat.le_add_right _ _) hahead
    · exact h
  | spawn path n => exact h.spawn path n
  | acquire path maxWait =>
    have ha := h.acquireUntil ⟨path, q.now⟩ (Nat.le_add_right q.now maxWait)
    exact ⟨ha.retry, ha.sorted, ha.ahead, ha.soon⟩
  | advance nanos => exact (h.advance _).1
  | stop => exact ⟨h.retry, h.sorted, h.ahead, h.soon⟩

theorem Paced.turns (h : Paced pause q) (us : List Queue.Turn) : Paced pause (q.turns us) := by
  induction us using List.reverseRecOn with
  | nil => exact h
  | append_singleton us u ih =>
    rw [Queue.turns_concat]
    exact ih.turn u

/-! ## After a stop -/

/-- What is left of the queue `q₀`, which was stopped, when `n` more calls have been made: requests
have gone only because they were cancelled. -/
structure Wound (q₀ : Queue) (n : Nat) (q : Queue) : Prop where
  throttler : q.throttler = q₀.throttler
  waiting : q.waiting.Sublist q₀.waiting
  told : ∃ k, q.finished = q₀.finished ++ List.replicate k (.error (.error .cancelled)) ∧
    k + q.waiting.length = q₀.waiting.length + n

variable {m : Nat}

/-- Who makes an attempt is told. It is a new call, or one of those that waited. -/
theorem Wound.submit (hs : q₀.throttler.stopped = true) (h : Wound q₀ n q)
    (hrest : rest.Sublist q.waiting) (hlen : m + q.waiting.length = n + rest.length + 1)
    (now : Nat) (r : Request) :
    Wound q₀ m (({ q with waiting := rest, now } : Queue).submit r) := by
  obtain ⟨k, hfinished, hcount⟩ := h.told
  have hattempt := attempt_of_stopped (h.throttler ▸ hs) now r.path
  unfold Queue.submit
  rw [hattempt]
  refine ⟨h.throttler, hrest.trans h.waiting, k + 1, ?_, ?_⟩
  · simp only [Attempt.outcome?]
    rw [hfinished, List.append_assoc, ← List.replicate_succ']
  · simp only [Attempt.outcome?]
    omega

theorem Wound.pass (h : Wound q₀ n q) (now : Nat) : Wound q₀ n { q with now } :=
  ⟨h.throttler, h.waiting, h.told⟩

theorem Wound.advance (hs : q₀.throttler.stopped = true) (h : Wound q₀ n q) (target : Nat) :
    Wound q₀ n (q.advance target) := by
  obtain ⟨q', hq', -, heq⟩ := advance_keeps target (P := Wound q₀ n)
    (fun {q w rest} hq hw _ => hq.submit hs (hw ▸ List.sublist_cons_self w rest)
      (by rw [hw, List.length_cons]; rfl) _ _) h
  exact heq ▸ hq'.pass _

theorem Wound.spawn (hs : q₀.throttler.stopped = true) (h : Wound q₀ n q) (path : String) :
    ∀ m : Nat, Wound q₀ (n + m) (q.spawn path m)
  | 0 => h.advance hs q.now
  | m + 1 => (Wound.spawn hs h path m).submit hs (List.Sublist.refl _) (by omega) _ _

/-- Who calls after a stop is told at once. -/
theorem acquire_of_stopped (hs : q.throttler.stopped = true) (path : String) (maxWait : Nat) :
    q.acquire path maxWait = (q, some (.error (.error .cancelled))) := by
  rw [Queue.acquire, Queue.acquireUntil, attempt_of_stopped hs]
  rfl

/-- **After a stop every turn leaves the throttler as it is, and answers with a cancellation.** -/
theorem Wound.turn (hs : q₀.throttler.stopped = true) (h : Wound q₀ n q) (u : Queue.Turn) :
    Wound q₀ (n + u.calls) (q.turn u) := by
  have hstopped : q.throttler.stopped = true := h.throttler ▸ hs
  cases u with
  | request path =>
    refine h.submit hs (List.Sublist.refl _) ?_ _ _
    rw [Queue.Turn.calls]
    omega
  | retry i =>
    simp only [Queue.turn]
    split
    · exact h
    · rename_i w hw
      split
      · have hi := (List.getElem?_eq_some_iff.mp hw).1
        refine h.submit hs (List.eraseIdx_sublist q.waiting i) ?_ _ _
        rw [List.length_eraseIdx_of_lt hi, Queue.Turn.calls]
        omega
      · exact h
  | pass nanos =>
    simp only [Queue.turn]
    split
    · exact h.pass _
    · exact h
  | spawn path m => exact h.spawn hs path m
  | acquire path maxWait =>
    obtain ⟨k, hfinished, hcount⟩ := h.told
    simp only [Queue.turn]
    rw [acquire_of_stopped hstopped]
    refine ⟨h.throttler, h.waiting, k + 1, ?_, ?_⟩
    · simp only [Queue.finish, Option.toList_some]
      rw [hfinished, List.append_assoc, ← List.replicate_succ']
    · simp only [Queue.finish, Queue.Turn.calls]
      omega
  | advance nanos => exact h.advance hs _
  | stop =>
    refine ⟨?_, h.waiting, h.told⟩
    simp only [Queue.turn, Throttler.stop]
    rw [← h.throttler, ← hstopped]

theorem Wound.turns (hs : q₀.throttler.stopped = true) (h : Wound q₀ n q) (us : List Queue.Turn) :
    Wound q₀ (n + (us.map Queue.Turn.calls).sum) (q.turns us) := by
  induction us using List.reverseRecOn with
  | nil => exact h
  | append_singleton us u ih =>
    rw [Queue.turns_concat, List.map_append, List.sum_append, List.map_singleton,
      List.sum_singleton, ← Nat.add_assoc]
    exact ih.turn hs u

/-- **A stop is final and prompt.** Take settings that are accepted, and any turns before and after
a stop, stops among them. The throttler stays as it was when it was stopped, so nothing is charged
to any limit, and whatever path a request is on, its attempts are cancelled. Who has been answered
since was cancelled, and these are all who waited at the stop and all who have called since, but for
those that still wait. Who still waits has waited since the stop, and is due before the retry
interval is over. So nobody waits when that has passed, or once all attempts have been made that are
due by its end. -/
theorem stop_final_prompt (settings : Settings) (t₀ : Throttler) (before after : List Queue.Turn)
    (hnew : new settings = .ok t₀) :
    let q := ({ throttler := t₀ } : Queue).turns before
    let q' := (q.turn .stop).turns after
    q'.throttler = q.throttler.stop ∧
    (∀ time path, q'.throttler.attempt time path = (q'.throttler, .cancelled)) ∧
    (∃ k, q'.finished = q.finished ++ List.replicate k (.error (.error .cancelled)) ∧
      k + q'.waiting.length = q.waiting.length + (after.map Queue.Turn.calls).sum) ∧
    (∀ w ∈ q'.waiting, w ∈ q.waiting ∧ q'.now ≤ w.due ∧ w.due ≤ q.now + settings.retry) ∧
    (q.now + settings.retry < q'.now → q'.waiting = []) ∧
    ∀ time, q.now + settings.retry ≤ time → (q'.advance time).waiting = [] := by
  intro q q'
  obtain ⟨-, -, -, hretry, -, -⟩ := new_ok hnew
  have hstart : Paced settings.retry { throttler := t₀ } :=
    ⟨hretry, List.Pairwise.nil, fun w hw => absurd hw List.not_mem_nil,
      fun w hw => absurd hw List.not_mem_nil⟩
  have hq : Paced settings.retry q := hstart.turns before
  have hq' : Paced settings.retry q' := (hq.turn .stop).turns after
  have hstopped : (q.turn .stop).throttler.stopped = true := rfl
  have hleft : Wound (q.turn .stop) (0 + (after.map Queue.Turn.calls).sum) q' :=
    Wound.turns hstopped ⟨rfl, List.Sublist.refl _, 0, (List.append_nil _).symm,
      Nat.zero_add _⟩ after
  rw [Nat.zero_add] at hleft
  have hwait : ∀ w ∈ q'.waiting, w ∈ q.waiting ∧ q'.now ≤ w.due ∧
      w.due ≤ q.now + settings.retry := by
    intro w hw
    have hmem : w ∈ q.waiting := hleft.waiting.subset hw
    exact ⟨hmem, hq'.ahead w hw, hq.soon w hmem⟩
  refine ⟨hleft.throttler, attempt_of_stopped (hleft.throttler ▸ hstopped), hleft.told, hwait,
    fun hlt => ?_, fun time hle => ?_⟩
  · refine List.eq_nil_iff_forall_not_mem.mpr fun w hw => ?_
    obtain ⟨-, hahead, hsoon⟩ := hwait w hw
    omega
  · refine List.eq_nil_iff_forall_not_mem.mpr fun w hw => ?_
    have hlater := (hq'.advance time).2 w hw
    have hsoon := hq.soon w ((hleft.advance hstopped time).waiting.subset hw)
    omega

/-- Three requests wait at the stop, two of them since the beginning. Another one, on a path without
a limit, comes after it. The two make their attempts in the wrong order, and the last one is due when the
interval is over. -/
theorem stop_final_prompt_waiting :
    let t₀ : Throttler :=
      { limits := sampleSettings.limits, margin := 100, retry := 50, retry_pos := by decide }
    let q := ({ throttler := t₀ } : Queue).turns
      [.request "/orders", .request "/orders", .request "/orders", .pass 20, .request "/orders"]
    let q' := (q.turn .stop).turns [.request "/status", .pass 30, .retry 1, .retry 0, .pass 20]
    new sampleSettings = .ok t₀ ∧ q.waiting.map (·.due) = [50, 50, 70] ∧
      q'.finished.length = q.finished.length + 3 ∧ q'.waiting = [⟨70, ⟨"/orders", 20⟩⟩] ∧
      q'.throttler = q.throttler.stop ∧ (q'.advance 70).waiting = [] := by
  intro t₀ q q'
  have hnew : new sampleSettings = .ok t₀ := by rfl
  obtain ⟨hstopped, -, -, -, -, hprompt⟩ := stop_final_prompt sampleSettings t₀
    [.request "/orders", .request "/orders", .request "/orders", .pass 20, .request "/orders"]
    [.request "/status", .pass 30, .retry 1, .retry 0, .pass 20] hnew
  exact ⟨hnew, by decide, by decide, by decide, hstopped, hprompt 70 (by decide)⟩

end Throttler

end BookFeed
