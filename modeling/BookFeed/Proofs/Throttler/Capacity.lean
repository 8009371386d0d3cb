import BookFeed.Proofs.Throttler.Interleaving
import Mathlib.Data.List.Induction
import Mathlib.Order.Nat

/-!
# Limits are kept in every window

`load` is the weight that admissions took of a limit within one span of it, up to a given time. The
span is the window of the limit and its margin. The throttler does not count admissions but the
charges in its log, from which it forgets: `Kept` says that what it counts now or later is the load
all the same, and that no load at any time is more than the limit.

* `Stepped.kept`: every event keeps this, the admission of a request included: the loads of times
  gone by do not change, and the load of a later time is at most the one now, for which there was
  room.
* **`run_load_le`**: so every limit is kept in every window of every interleaving. Where limits are
  below `2147483648`, no attempt ends in an overflow either.
-/

namespace BookFeed.Throttler

variable {t₀ : Throttler} {s s' : System} {as : List Admission} {limit : RateLimit}
  {now later : Nat}

/-- The weight that admissions took of `limit` within the span of it that ends at `time`. -/
def load (t : Throttler) (as : List Admission) (limit : RateLimit) (time : Nat) : Nat :=
  ((as.filter fun a => a.time ≤ time ∧ time < a.time + t.span limit).map
    fun a => t.takes limit a.path).sum

theorem load_cons (a : Admission) (as : List Admission) (time : Nat) :
    t₀.load (a :: as) limit time =
      (if a.time ≤ time ∧ time < a.time + t₀.span limit then t₀.takes limit a.path else 0) +
        t₀.load as limit time := by
  unfold load
  by_cases h : a.time ≤ time ∧ time < a.time + t₀.span limit
  · rw [List.filter_cons_of_pos (by simpa using h), List.map_cons, List.sum_cons, if_pos h]
  · rw [List.filter_cons_of_neg (by simpa using h), if_neg h, Nat.zero_add]

theorem load_concat (a : Admission) (as : List Admission) (time : Nat) :
    t₀.load (as ++ [a]) limit time = t₀.load as limit time +
      if a.time ≤ time ∧ time < a.time + t₀.span limit then t₀.takes limit a.path else 0 := by
  induction as with
  | nil =>
    rw [List.nil_append, load_cons, Nat.add_comm]
  | cons b as ih => rw [List.cons_append, load_cons, load_cons, ih, Nat.add_assoc]

/-- Without new admissions a load only falls. -/
theorem load_antitone (hpast : ∀ a ∈ as, a.time ≤ now) (h : now ≤ later) :
    t₀.load as limit later ≤ t₀.load as limit now := by
  induction as with
  | nil => exact Nat.le_refl _
  | cons a as ih =>
    rw [load_cons, load_cons]
    refine Nat.add_le_add ?_ (ih fun b hb => hpast b (List.mem_cons_of_mem _ hb))
    have ha := hpast a List.mem_cons_self
    split
    · rename_i hin
      rw [if_pos ⟨ha, by omega⟩]
    · exact Nat.zero_le _

/-- What every event keeps. -/
structure Kept (t₀ : Throttler) (s : System) : Prop where
  same : Same t₀ s.throttler
  past : ∀ a ∈ s.admissions, a.time ≤ s.now
  /-- the log tells the loads -/
  told : ∀ limit ∈ t₀.limits, ∀ later, s.now ≤ later →
    weightOn limit.path (s.throttler.live later) = t₀.load s.admissions limit later
  bounded : ∀ limit ∈ t₀.limits, ∀ time, t₀.load s.admissions limit time ≤ limit.limit.toNat

/-! ## Every event -/

/-- The admission of a request. -/
theorem Kept.admit {t : Throttler} {calls : List Call} {l : RateLimit} {a : Admission}
    (hc : Configured t₀.limits) (hw : t₀.ChecksWhole) (hk : Kept t₀ s)
    (ht : Same s.throttler t) (hl : s.throttler.limit? a.path = some l) (ha : a.time = s.now)
    (hroom : ∀ d ∈ s.throttler.demands l,
      weightOn d.1.path (s.throttler.live s.now) + d.2.toNat ≤ d.1.limit.toNat)
    (hlog : t.log = s.throttler.live s.now ++ s.throttler.charges s.now l) :
    Kept t₀ { s with throttler := t, calls, admissions := s.admissions ++ [a] } := by
  have hc' : Configured s.throttler.limits := hk.same.limits ▸ hc
  have hw' : s.throttler.ChecksWhole := hk.same.checksWhole hw
  refine ⟨hk.same.trans ht, ?_, ?_, ?_⟩
  · intro b hb
    rcases List.mem_append.mp hb with hb | hb
    · exact hk.past b hb
    · exact (List.mem_singleton.mp hb ▸ ha).le
  · intro limit hlimit later hlater
    have hmem : limit ∈ s.throttler.limits := hk.same.limits ▸ hlimit
    have hlive : t.live later = s.throttler.live later ++
        (s.throttler.charges s.now l).filter (s.throttler.isLive later) := by
      unfold live
      rw [ht.isLive, hlog, List.filter_append, filter_isLive hlater]
    show weightOn limit.path (t.live later) = t₀.load (s.admissions ++ [a]) limit later
    rw [hlive, weightOn_append, hk.told limit hlimit later hlater,
      weightOn_live hc' hmem (fun _ => time_of_mem_charges) hlater, weightOn_charges hc' hmem hl, load_concat, ha,
      hk.same.takes, hk.same.span]
    congr 1
    exact if_congr ⟨fun h => ⟨hlater, h⟩, fun h => h.2⟩ rfl rfl
  · intro limit hlimit time
    have hmem : limit ∈ s.throttler.limits := hk.same.limits ▸ hlimit
    show t₀.load (s.admissions ++ [a]) limit time ≤ limit.limit.toNat
    rw [load_concat]
    have hbound := hk.bounded limit hlimit time
    split
    · rename_i hin
      rw [ha] at hin
      have hnow := hk.told limit hlimit s.now (Nat.le_refl _)
      have hle := takes_le hw' hmem hl hroom (hnow ▸ hk.bounded limit hlimit s.now)
      rw [hk.same.takes, hnow] at hle
      exact (Nat.add_le_add_right (load_antitone hk.past hin.1) _).trans hle
    · exact hbound

/-- **Every event keeps the limits.** -/
theorem Stepped.kept (hc : Configured t₀.limits) (hw : t₀.ChecksWhole)
    (h : Stepped s s') (hk : Kept t₀ s) : Kept t₀ s' := by
  cases h with
  | @quiet t now calls ht hlog hnow =>
    refine ⟨hk.same.trans ht, fun a ha => (hk.past a ha).trans hnow,
      fun limit hlimit later hlater => ?_, hk.bounded⟩
    exact (congrArg _ (ht.live hlog later)).trans
      (hk.told limit hlimit later (hnow.trans hlater))
  | @forgot t calls ht hlog =>
    refine ⟨hk.same.trans ht, hk.past, fun limit hlimit later hlater => ?_, hk.bounded⟩
    have hlive : t.live later = s.throttler.live later := by
      unfold live
      rw [ht.isLive, hlog, filter_isLive hlater]
    exact (congrArg _ hlive).trans (hk.told limit hlimit later hlater)
  | @unlimited t calls a ht hl ha hlog =>
    have hload : ∀ limit time,
        t₀.load (s.admissions ++ [a]) limit time = t₀.load s.admissions limit time := by
      intro limit time
      rw [hk.same.limit?] at hl
      rw [load_concat, takes_of_unlimited hl, ite_self, Nat.add_zero]
    refine ⟨hk.same.trans ht, fun b hb => ?_, fun limit hlimit later hlater => ?_,
      fun limit hlimit time => ?_⟩
    · rcases List.mem_append.mp hb with hb | hb
      · exact hk.past b hb
      · exact (List.mem_singleton.mp hb ▸ ha).le
    · exact (congrArg _ (ht.live hlog later)).trans
        ((hk.told limit hlimit later hlater).trans (hload limit later).symm)
    · exact (hload limit time).trans_le (hk.bounded limit hlimit time)
  | admitted ht hl ha hroom hlog => exact hk.admit hc hw ht hl ha hroom hlog

/-! ## Every run -/

/-- A throttler that nobody has called yet. -/
def System.start (t : Throttler) : System := { throttler := t }

theorem start_kept (h : t₀.log = []) : Kept t₀ (System.start t₀) := by
  refine ⟨.refl _, fun a ha => absurd ha List.not_mem_nil, fun limit _ later _ => ?_,
    fun _ _ _ => Nat.zero_le _⟩
  show weightOn limit.path (t₀.live later) = 0
  rw [live, h]
  rfl

theorem run_kept_of_whole (hc : Configured t₀.limits) (hw : t₀.ChecksWhole) (hlog : t₀.log = [])
    (es : List Event) : Kept t₀ ((System.start t₀).run es) := by
  induction es using List.reverseRecOn with
  | nil => exact start_kept hlog
  | append_singleton es e ih =>
    rw [run_concat]
    exact (step_stepped _ e).kept hc hw ih

theorem run_kept (hc : Configured t₀.limits) (hs : SimplyLinked t₀.limits) (hlog : t₀.log = [])
    (es : List Event) : Kept t₀ ((System.start t₀).run es) :=
  run_kept_of_whole hc (hs.checksWhole hc) hlog es

/-- Where limits are small, no sum of weights is too large for a word. -/
theorem Kept.no_overflow (hc : Configured t₀.limits) (hk : Kept t₀ s)
    (hsmall : ∀ limit ∈ t₀.limits, limit.limit.toNat < 2147483648) (hlater : s.now ≤ later)
    (path : String) : (s.throttler.attempt later path).2 ≠ .overflow := by
  have h := attempt_attempted s.throttler later path
  generalize s.throttler.attempt later path = done at h ⊢
  obtain ⟨t, a⟩ := done
  rintro rfl
  cases h with
  | @overflow l _ hl hsum =>
    obtain ⟨d, hd, hsum⟩ := hsum
    have hc' : Configured s.throttler.limits := hk.same.limits ▸ hc
    obtain ⟨hmem, hweight⟩ := demand_le hc' (limit?_mem hl) hd
    have hmem : d.1 ∈ t₀.limits := hk.same.limits ▸ hmem
    rw [hk.told d.1 hmem later hlater] at hsum
    have hbound := hk.bounded d.1 hmem later
    have hlimit := hsmall d.1 hmem
    simp only [UInt32.size] at hsum
    omega

/-- Requests for orders, each charged to a pool as well that has room for one at a time. -/
def sampleSettings : Settings where
  limits := [
    { path := "/orders", limit := 4, window := 1000, weight := 2, linked := [⟨"all", 3⟩] },
    { path := "all", limit := 5, window := 500, margin := some 0 }]
  margin := 100
  retry := 50

/-- **Every limit is kept in every window.** Take settings that are accepted, in which no limit is
linked to itself or to one pool twice. After any interleaving of calls, for each limit and each time
the weight that admissions took of the limit within its span up to then, under the path of the limit
and under paths linked to it, is at most the limit. If the limits are below `2147483648`, no attempt
now or later ends because a sum of weights is too large. -/
theorem run_load_le (settings : Settings) (t₀ : Throttler) (es : List Event)
    (hnew : new settings = .ok t₀) (hlinks : SimplyLinked settings.limits) :
    let s := (System.start t₀).run es
    (∀ limit ∈ t₀.limits, ∀ time, t₀.load s.admissions limit time ≤ limit.limit.toNat) ∧
      ((∀ limit ∈ t₀.limits, limit.limit.toNat < 2147483648) →
        ∀ later path, s.now ≤ later → (s.throttler.attempt later path).2 ≠ .overflow) := by
  intro s
  have hc := new_configured hnew
  have hlog : t₀.log = [] := (new_ok hnew).2.2.2.2.1
  have hk : Kept t₀ s := run_kept hc (new_simplyLinked hnew hlinks) hlog es
  exact ⟨hk.bounded, fun hsmall later path hlater => hk.no_overflow hc hsmall hlater path⟩

/-- Two calls side by side. The one that comes second to the lock waits for the pool. -/
theorem run_load_le_pool :
    let t₀ : Throttler :=
      { limits := sampleSettings.limits, margin := 100, retry := 50, retry_pos := by decide }
    let es : List Event := [.call "/orders", .call "/orders", .look 0, .look 1, .attempt 1,
      .attempt 0, .pass 499, .look 0, .attempt 0, .pass 50, .look 0, .attempt 0]
    let s := (System.start t₀).run es
    new sampleSettings = .ok t₀ ∧
      s.admissions = [⟨"/orders", 0, 0, true⟩, ⟨"/orders", 549, 549, true⟩] ∧
      (∀ limit ∈ t₀.limits, ∀ time, t₀.load s.admissions limit time ≤ limit.limit.toNat) ∧
      ∀ later path, s.now ≤ later → (s.throttler.attempt later path).2 ≠ .overflow := by
  intro t₀ es s
  have hnew : new sampleSettings = .ok t₀ := by rfl
  have hadmissions : s.admissions = [⟨"/orders", 0, 0, true⟩, ⟨"/orders", 549, 549, true⟩] := by
    decide
  obtain ⟨hload, hword⟩ := run_load_le sampleSettings t₀ es hnew (by decide)
  exact ⟨hnew, hadmissions, hload, hword (by decide)⟩

end BookFeed.Throttler
