import BookFeed.Proofs.Throttler.Pruning
import Mathlib.Algebra.Order.BigOperators.Group.List
import Mathlib.Algebra.Order.Group.Nat
import Mathlib.Data.List.MinMax

/-!
# Sums of weights and 32-bit words

Weights are added up before they are compared with the limit, and settings are accepted where a sum
is no 32-bit word: a weight is checked against the limit, and not the two together. The comparison
that an attempt makes is the one of natural numbers all the same, except that a demand whose sum is
no word ends the attempt (`attempt_eq_overflow_iff`).

What is charged to a limit never exceeds its `ceiling`: the limit itself, and what one admission may
take of it beyond the largest of its demands. Where no ceiling and demand together leave the words,
no sum ever does.

* `admission_le_ceiling`, `Stepped.below`: an admission and every other event keep this;
* `exists_overflow`: where what is taken of a limit is checked as a whole, a limit and a demand that
  are no word together overflow on some log that is within every limit;
* **`run_sums_fit`**: all of this for every run under settings that are accepted.
-/

namespace BookFeed.Throttler

variable {t t₀ : Throttler} {s s' : System} {now later : Nat} {path : String}
  {l limit : RateLimit} {cs : List Charge} {ds : List (RateLimit × UInt32)}
  {d : RateLimit × UInt32}

/-! ## Which demand settles an attempt -/

/-- The sum for a demand is no word, and there is room for every demand before it. -/
def OverflowsAt (cs : List Charge) (ds : List (RateLimit × UInt32)) : Prop :=
  ∃ before d after, ds = before ++ d :: after ∧
    (∀ e ∈ before, weightOn e.1.path cs + e.2.toNat ≤ e.1.limit.toNat) ∧
    UInt32.size ≤ weightOn d.1.path cs + d.2.toNat

theorem not_overflowsAt_nil : ¬ OverflowsAt cs [] := by
  rintro ⟨before, d, after, heq, -⟩
  exact absurd heq (by simp)

theorem overflowsAt_cons : OverflowsAt cs (d :: ds) ↔
    UInt32.size ≤ weightOn d.1.path cs + d.2.toNat ∨
      weightOn d.1.path cs + d.2.toNat ≤ d.1.limit.toNat ∧ OverflowsAt cs ds := by
  constructor
  · rintro ⟨before, e, after, heq, hbefore, hbig⟩
    cases before with
    | nil =>
      rw [List.nil_append, List.cons.injEq] at heq
      exact .inl (heq.1 ▸ hbig)
    | cons e' before =>
      rw [List.cons_append, List.cons.injEq] at heq
      obtain ⟨hd, hds⟩ := List.forall_mem_cons.mp hbefore
      exact .inr ⟨heq.1 ▸ hd, before, e, after, heq.2, hds, hbig⟩
  · rintro (hbig | ⟨hroom, before, e, after, heq, hbefore, hbig⟩)
    · exact ⟨[], d, ds, rfl, fun e he => absurd he List.not_mem_nil, hbig⟩
    · exact ⟨d :: before, e, after, by rw [heq, List.cons_append],
        List.forall_mem_cons.mpr ⟨hroom, hbefore⟩, hbig⟩

theorem haveRoom_eq_overflow_iff (cs : List Charge) (ds : List (RateLimit × UInt32)) :
    haveRoom cs ds = .error .overflow ↔ OverflowsAt cs ds := by
  induction ds with
  | nil => exact iff_of_false (by simp [haveRoom]) not_overflowsAt_nil
  | cons d ds ih =>
    rw [overflowsAt_cons]
    unfold haveRoom
    have hword : d.1.limit.toNat < UInt32.size := d.1.limit.toNat_lt
    rcases Nat.lt_or_ge (weightOn d.1.path cs + d.2.toNat) UInt32.size with hlt | hge
    · rw [hasRoom_of_lt hlt, or_iff_right (Nat.not_le.mpr hlt)]
      by_cases hle : weightOn d.1.path cs + d.2.toNat ≤ d.1.limit.toNat
      · rw [decide_eq_true hle]
        exact ih.trans (and_iff_right hle).symm
      · rw [decide_eq_false hle]
        exact iff_of_false (by simp) fun h => hle h.1
    · rw [hasRoom_of_le hge]
      exact iff_of_true rfl (.inl hge)

/-- **An attempt overflows where the first demand without room has a sum that is no word.** -/
theorem attempt_eq_overflow_iff (hs : t.stopped = false) (hl : t.limit? path = some l) :
    (t.attempt now path).2 = .overflow ↔ OverflowsAt (t.live now) (t.demands l) := by
  rw [← haveRoom_eq_overflow_iff]
  unfold attempt
  rw [hs, hl]
  rcases haveRoom_cases (t.live now) (t.demands l) with ⟨hr, -⟩ | ⟨hr, -⟩ | ⟨hr, -⟩
  · simp [hr]
  · simp [hr]
  · simp [hr]

/-! ## Ceilings -/

/-- The weights that one admission demands of a limit. -/
def demandsOn (t : Throttler) (limit l : RateLimit) : List Nat :=
  ((t.demands l).filter (·.1.path = limit.path)).map (·.2.toNat)

/-- What one admission takes of a limit beyond its largest demand. -/
def excess (t : Throttler) (limit l : RateLimit) : Nat :=
  t.takes limit l.path - (t.demandsOn limit l).foldr max 0

/-- The most that may be charged to a limit. -/
def ceiling (t : Throttler) (limit : RateLimit) : Nat :=
  limit.limit.toNat + (t.limits.map (t.excess limit)).foldr max 0

theorem excess_le_ceiling (hl : l ∈ t.limits) :
    limit.limit.toNat + t.excess limit l ≤ t.ceiling limit :=
  Nat.add_le_add_left (List.le_max_of_le (List.mem_map_of_mem hl) le_rfl) _

theorem mem_demandsOn (hd : d ∈ t.demands l) (hp : d.1.path = limit.path) :
    d.2.toNat ∈ t.demandsOn limit l :=
  List.mem_map.mpr ⟨d, List.mem_filter.mpr ⟨hd, decide_eq_true hp⟩, rfl⟩

/-- An admission takes what it demands in all. -/
theorem takes_eq_sum (hc : Configured t.limits) (hlimit : limit ∈ t.limits) (hl : l ∈ t.limits) :
    t.takes limit l.path = (t.demandsOn limit l).sum := by
  rw [← weightOn_charges hc hlimit (limit?_of_mem hc hl) 0]
  unfold charges demandsOn
  induction t.demands l with
  | nil => rfl
  | cons d ds ih =>
    rw [List.map_cons, weightOn_cons, ih]
    by_cases hp : d.1.path = limit.path
    · rw [if_pos hp, List.filter_cons_of_pos (by simpa using hp), List.map_cons, List.sum_cons]
    · rw [if_neg hp, List.filter_cons_of_neg (by simpa using hp), Nat.zero_add]

/-- **An admission stays below every ceiling**, since there was room for the largest demand. -/
theorem admission_le_ceiling (hc : Configured t.limits) (hlimit : limit ∈ t.limits)
    (hl : l ∈ t.limits)
    (hroom : ∀ d ∈ t.demands l, weightOn d.1.path cs + d.2.toNat ≤ d.1.limit.toNat)
    (hbelow : weightOn limit.path cs ≤ t.ceiling limit) :
    weightOn limit.path cs + t.takes limit l.path ≤ t.ceiling limit := by
  by_cases htakes : t.takes limit l.path = 0
  · rw [htakes]
    exact hbelow
  · have hone : ∀ w ∈ t.demandsOn limit l, weightOn limit.path cs + w ≤ limit.limit.toNat := by
      intro w hw
      obtain ⟨d, hd, rfl⟩ := List.mem_map.mp hw
      obtain ⟨hmem, hp⟩ := List.mem_filter.mp hd
      obtain rfl := eq_of_path hc (demand_le hc hl hmem).1 hlimit (of_decide_eq_true hp)
      exact hroom d hmem
    have hlargest : (t.demandsOn limit l).foldr max 0 ≤
        limit.limit.toNat - weightOn limit.path cs :=
      List.max_le_of_forall_le _ _ fun w hw => Nat.le_sub_of_add_le' (hone w hw)
    have hkept : weightOn limit.path cs ≤ limit.limit.toNat := by
      cases hds : t.demandsOn limit l with
      | nil => exact absurd (by rw [takes_eq_sum hc hlimit hl, hds]; rfl) htakes
      | cons w ws => exact Nat.le_of_add_right_le (hone w (hds ▸ List.mem_cons_self))
    have hexcess : limit.limit.toNat + t.excess limit l ≤ t.ceiling limit := excess_le_ceiling hl
    unfold excess at hexcess
    omega

/-- Where what is taken of a limit is checked as a whole, the ceiling is the limit. -/
theorem ceiling_eq_limit (hw : t.ChecksWhole) (hlimit : limit ∈ t.limits) :
    t.ceiling limit = limit.limit.toNat := by
  have hnone : (t.limits.map (t.excess limit)).foldr max 0 ≤ 0 := by
    refine List.max_le_of_forall_le _ _ fun n hn => ?_
    obtain ⟨l, hl, rfl⟩ := List.mem_map.mp hn
    unfold excess
    rcases hw l hl limit hlimit with h | ⟨w, hd, h⟩
    · omega
    · have hle : w.toNat ≤ (t.demandsOn limit l).foldr max 0 :=
        List.le_max_of_le (mem_demandsOn hd rfl) le_rfl
      omega
  unfold ceiling
  omega

/-! ## Every run stays below the ceilings -/

theorem weightOn_filter_le (p : Charge → Bool) (path : String) (cs : List Charge) :
    weightOn path (cs.filter p) ≤ weightOn path cs := by
  induction cs with
  | nil => exact Nat.le_refl _
  | cons c cs ih =>
    rw [weightOn_cons, List.filter_cons]
    split
    · rw [weightOn_cons]
      omega
    · omega

/-- Without new charges, what counts only falls. -/
theorem weightOn_live_antitone (h : now ≤ later) (path : String) :
    weightOn path (t.live later) ≤ weightOn path (t.live now) := by
  rw [live, ← filter_isLive h]
  exact weightOn_filter_le _ _ _

theorem Same.ceiling (h : Same t₀ t) (limit : RateLimit) : t.ceiling limit = t₀.ceiling limit := by
  unfold Throttler.ceiling excess demandsOn
  simp only [h.limits, h.takes, h.demands]

/-- What counts against a limit, now and later, is below its ceiling. -/
structure Below (t₀ : Throttler) (s : System) : Prop where
  same : Same t₀ s.throttler
  le : ∀ limit ∈ t₀.limits, ∀ later, s.now ≤ later →
    weightOn limit.path (s.throttler.live later) ≤ t₀.ceiling limit

/-- **Every event keeps what is charged below the ceilings.** -/
theorem Stepped.below (hc : Configured t₀.limits) (h : Stepped s s') (hb : Below t₀ s) :
    Below t₀ s' := by
  have hsame := hb.same.trans h.same
  refine ⟨hsame, fun limit hlimit later hlater => ?_⟩
  have hc' : Configured s.throttler.limits := hb.same.limits ▸ hc
  have hmem : limit ∈ s.throttler.limits := hb.same.limits ▸ hlimit
  rcases h.live_later hlater with hlive | ⟨path, l, hl, hnow, hroom, hlive⟩
  · rw [hlive]
    exact hb.le limit hlimit later (h.now_le.trans hlater)
  · have hbefore := hb.le limit hlimit s.now (Nat.le_refl _)
    rw [hlive, weightOn_append, weightOn_live hc' hmem (fun _ => time_of_mem_charges) hnow]
    split
    · rw [← hb.same.ceiling] at hbefore ⊢
      rw [weightOn_charges hc' hmem hl, ← limit?_path hl]
      exact (Nat.add_le_add_right (weightOn_live_antitone hnow limit.path) _).trans
        (admission_le_ceiling hc' hmem (limit?_mem hl) hroom hbefore)
    · exact hb.le limit hlimit later hnow

theorem run_below (hc : Configured t₀.limits) (hlog : t₀.log = []) (es : List Event) :
    Below t₀ ((System.start t₀).run es) := by
  induction es using List.reverseRecOn with
  | nil =>
    refine ⟨.refl _, fun limit _ later _ => ?_⟩
    show weightOn limit.path (t₀.live later) ≤ t₀.ceiling limit
    rw [live, hlog]
    exact Nat.zero_le _
  | append_singleton es e ih =>
    rw [run_concat]
    exact (step_stepped _ e).below hc ih

/-! ## Sums that are words -/

/-- No ceiling and demand together leave the words. -/
def FitsWords (t : Throttler) : Prop :=
  ∀ l ∈ t.limits, ∀ d ∈ t.demands l, t.ceiling d.1 + d.2.toNat < UInt32.size

instance (t : Throttler) : Decidable t.FitsWords := inferInstanceAs (Decidable (∀ l ∈ t.limits, _))

/-- Charges on a path without a limit are not live. -/
theorem weightOn_live_of_unlimited (h : t.limit? path = none) (now : Nat) :
    weightOn path (t.live now) = 0 := by
  refine weightOn_eq_zero fun c hc hp => ?_
  have hlive := (List.mem_filter.mp hc).2
  rw [isLive, hp, h] at hlive
  exact absurd hlive (by simp)

/-- An occupancy is what counts against the path. -/
theorem Below.occupancy_ok (hb : Below t₀ s) (hf : t₀.FitsWords) (hlater : s.now ≤ later)
    (path : String) : (s.throttler.occupancy later path).map UInt32.toNat =
      .ok (weightOn path (s.throttler.live later)) := by
  have hlt : weightOn path (s.throttler.live later) < UInt32.size := by
    cases hl : s.throttler.limit? path with
    | none =>
      rw [weightOn_live_of_unlimited hl]
      decide
    | some l =>
      have hmem : l ∈ t₀.limits := hb.same.limits ▸ limit?_mem hl
      have hle := hb.le l hmem later hlater
      have hfits := hf l hmem (l, l.weight) List.mem_cons_self
      rw [limit?_path hl] at hle
      simp only at hfits
      omega
  rw [occupancy, word_of_lt hlt]
  exact congrArg Except.ok (UInt32.toNat_ofNat_of_lt' hlt)

theorem attemptCleared_outcome (t : Throttler) (now : Nat) (path : String) :
    (t.attemptCleared now path).2 =
      (({ t with stopped := false } : Throttler).attempt now path).2 := rfl

theorem Below.ne_overflow (hc : Configured t₀.limits) (hb : Below t₀ s) (hf : t₀.FitsWords)
    (hlater : s.now ≤ later) (path : String) :
    (s.throttler.attemptCleared later path).2 ≠ .overflow := by
  rw [attemptCleared_outcome]
  have h := attempt_attempted { s.throttler with stopped := false } later path
  generalize ({ s.throttler with stopped := false } : Throttler).attempt later path = done at h ⊢
  obtain ⟨t, a⟩ := done
  rintro rfl
  cases h with
  | @overflow l _ hl hsum =>
    obtain ⟨d, hd, hbig⟩ := hsum
    have hsame : Same t₀ { s.throttler with stopped := false } :=
      ⟨hb.same.limits, hb.same.margin⟩
    rw [hsame.demands] at hd
    have hmem : l ∈ t₀.limits := hb.same.limits ▸ limit?_mem hl
    have hle := hb.le d.1 (demand_le hc hmem hd).1 later hlater
    have hfits := hf l hmem d hd
    exact absurd hbig (Nat.not_le.mpr ((Nat.add_le_add_right hle _).trans_lt hfits))

/-! ## Sums that are no words -/

/-- Where what is taken of a limit is checked as a whole, what is demanded of it before a demand of
some weight is nothing. -/
theorem weight_eq_zero_of_before (hc : Configured t.limits) (hw : t.ChecksWhole)
    (hl : l ∈ t.limits) {before after : List (RateLimit × UInt32)} {e : RateLimit × UInt32}
    (hdemands : t.demands l = before ++ d :: after) (he : e ∈ before)
    (hpath : e.1.path = d.1.path) (hpos : d.2.toNat ≠ 0) : e.2.toNat = 0 := by
  have hd : d ∈ t.demands l := hdemands ▸ List.mem_append_right _ List.mem_cons_self
  have hlimit := (demand_le hc hl hd).1
  have hsum := takes_eq_sum hc hlimit hl
  have hon : t.demandsOn d.1 l = (before.filter (·.1.path = d.1.path)).map (·.2.toNat) ++
      d.2.toNat :: (after.filter (·.1.path = d.1.path)).map (·.2.toNat) := by
    rw [demandsOn, hdemands, List.filter_append, List.filter_cons_of_pos (by simp),
      List.map_append, List.map_cons]
  have hbefore : e.2.toNat ∈ (before.filter (·.1.path = d.1.path)).map (·.2.toNat) :=
    List.mem_map.mpr ⟨e, List.mem_filter.mpr ⟨he, decide_eq_true hpath⟩, rfl⟩
  rw [hon, List.sum_append, List.sum_cons] at hsum
  have hle := List.le_sum_of_mem hbefore
  rcases hw l hl d.1 hlimit with hnone | ⟨w, hmem, htotal⟩
  · omega
  · -- the one demand that is all that is taken can be none but this one
    have hw' : w.toNat ∈ t.demandsOn d.1 l := mem_demandsOn hmem rfl
    rw [hon] at hw'
    rcases List.mem_append.mp hw' with hmem | hmem
    · have := List.le_sum_of_mem hmem
      omega
    · rcases List.mem_cons.mp hmem with heq | hmem
      · omega
      · have := List.le_sum_of_mem hmem
        omega

/-- **A limit and a demand that are no word together overflow** on a log that has the whole limit
charged. -/
theorem exists_overflow (hc : Configured t.limits) (hw : t.ChecksWhole) (hs : t.stopped = false)
    (hl : l ∈ t.limits) (hd : d ∈ t.demands l)
    (hbig : UInt32.size ≤ d.1.limit.toNat + d.2.toNat) (now : Nat) :
    ∃ log, ({ t with log } : Throttler).KeepsLimits now ∧
      (({ t with log } : Throttler).attempt now l.path).2 = .overflow := by
  have hlimit := (demand_le hc hl hd).1
  have hlive := live_single hc hlimit now d.1.limit
  have hweight : ∀ pool ∈ t.limits, weightOn pool.path [⟨now, d.1.path, d.1.limit⟩] =
      if pool = d.1 then pool.limit.toNat else 0 := by
    intro pool hpool
    rw [weightOn_single]
    by_cases hp : pool = d.1
    · rw [if_pos (congrArg RateLimit.path hp).symm, if_pos hp, hp]
    · rw [if_neg hp, if_neg fun he => hp (eq_of_path hc hpool hlimit he.symm)]
  refine ⟨[⟨now, d.1.path, d.1.limit⟩], fun pool hpool => ?_, ?_⟩
  · rw [hlive, hweight pool hpool]
    split
    · exact Nat.le_refl _
    · exact Nat.zero_le _
  · rw [attempt_eq_overflow_iff (t := { t with log := [⟨now, d.1.path, d.1.limit⟩] }) hs
      (limit?_of_mem hc hl), hlive]
    obtain ⟨before, after, hdemands⟩ := List.append_of_mem hd
    refine ⟨before, d, after, hdemands, fun e he => ?_, ?_⟩
    · have hmem : e ∈ t.demands l := hdemands ▸ List.mem_append_left _ he
      obtain ⟨hpool, hle⟩ := demand_le hc hl hmem
      rw [hweight e.1 hpool]
      split
      · rename_i hp
        have hword : d.1.limit.toNat < UInt32.size := d.1.limit.toNat_lt
        rw [weight_eq_zero_of_before hc hw hl hdemands he (congrArg RateLimit.path hp) (by omega)]
        exact Nat.le_refl _
      · rwa [Nat.zero_add]
    · rw [hweight d.1 hlimit, if_pos rfl]
      exact hbig

/-- Where what is taken of a limit is checked as a whole, limits and demands are words together
exactly if no log within the limits makes an attempt overflow. -/
theorem fitsWords_iff (hc : Configured t.limits) (hw : t.ChecksWhole) (hs : t.stopped = false) :
    t.FitsWords ↔ ∀ log now path, ({ t with log } : Throttler).KeepsLimits now →
      (({ t with log } : Throttler).attempt now path).2 ≠ .overflow := by
  constructor
  · intro hf log now path hk
    have hsame : Same t { t with log } := ⟨rfl, rfl⟩
    have hbelow : Below t { throttler := { t with log }, now } :=
      ⟨hsame, fun limit hlimit later hlater => (weightOn_live_antitone hlater limit.path).trans
        ((hk limit hlimit).trans (ceiling_eq_limit hw hlimit).ge)⟩
    have hne := hbelow.ne_overflow hc hf (Nat.le_refl now) path
    have hrunning : ({ t with log, stopped := false } : Throttler) = { t with log } := by rw [← hs]
    rwa [attemptCleared_outcome, hrunning] at hne
  · intro h l hl d hd
    rw [ceiling_eq_limit hw (demand_le hc hl hd).1]
    by_contra hbig
    obtain ⟨log, hk, hover⟩ := exists_overflow hc hw hs hl hd (Nat.not_lt.mp hbig) 0
    exact h log 0 l.path hk hover

/-! ## Every run -/

/-- **When sums of weights are words.** Take settings that are accepted, whatever they are linked
to, and any interleaving of calls. A call that makes an attempt is admitted exactly if there is room
for each demand in natural numbers, and it overflows exactly if the first demand without room has a
sum that is no 32-bit word. If no ceiling and demand together leave the words, occupancies can be
read and no attempt overflows, in every run, now and later. Where what is taken of a limit is
checked as a whole, ceilings are limits, and this condition is exactly what it takes for no attempt
to overflow on any log that is within the limits. -/
theorem run_sums_fit (settings : Settings) (t₀ : Throttler) (hnew : new settings = .ok t₀) :
    (∀ es later path l, t₀.limit? path = some l →
      let t := ((System.start t₀).run es).throttler
      ((t.attemptCleared later path).2 = .admitted ↔ ∀ d ∈ t₀.demands l,
        weightOn d.1.path (t.live later) + d.2.toNat ≤ d.1.limit.toNat) ∧
      ((t.attemptCleared later path).2 = .overflow ↔
        OverflowsAt (t.live later) (t₀.demands l))) ∧
    (t₀.FitsWords → ∀ es later path, ((System.start t₀).run es).now ≤ later →
      let t := ((System.start t₀).run es).throttler
      (t.occupancy later path).map UInt32.toNat = .ok (weightOn path (t.live later)) ∧
        (t.attemptCleared later path).2 ≠ .overflow) ∧
    (t₀.ChecksWhole → (∀ limit ∈ t₀.limits, t₀.ceiling limit = limit.limit.toNat) ∧
      (t₀.FitsWords ↔ ∀ log now path, ({ t₀ with log } : Throttler).KeepsLimits now →
        (({ t₀ with log } : Throttler).attempt now path).2 ≠ .overflow)) := by
  have hc := new_configured hnew
  obtain ⟨-, -, -, -, hlog, hs⟩ := new_ok hnew
  refine ⟨fun es later path l hl => ?_, fun hf es later path hlater => ?_, fun hw =>
    ⟨fun limit hlimit => ceiling_eq_limit hw hlimit, fitsWords_iff hc hw hs⟩⟩
  · intro t
    have hb : Below t₀ ((System.start t₀).run es) := run_below hc hlog es
    have hl' : ({ t with stopped := false } : Throttler).limit? path = some l :=
      (hb.same.limit? path).trans hl
    have hadmitted := admitted_iff_room later rfl hl'
    have hoverflow : (t.attemptCleared later path).2 = .overflow ↔ _ :=
      attempt_eq_overflow_iff rfl hl'
    have hdemands : ({ t with stopped := false } : Throttler).demands l = t₀.demands l :=
      hb.same.demands l
    rw [hdemands] at hadmitted hoverflow
    exact ⟨hadmitted, hoverflow⟩
  · intro t
    have hb : Below t₀ ((System.start t₀).run es) := run_below hc hlog es
    exact ⟨hb.occupancy_ok hf hlater path, hb.ne_overflow hc hf hlater path⟩

/-- One more than its limit may be charged to a pool that is listed twice, and this is still far
from the largest word. -/
theorem run_sums_fit_doublyLinked :
    let t₀ : Throttler :=
      { limits := doublyLinked.limits, margin := doublyLinked.margin,
        retry := doublyLinked.retry, retry_pos := by decide }
    new doublyLinked = .ok t₀ ∧ t₀.limits.map t₀.ceiling = [10, 4] ∧ t₀.FitsWords ∧
      ∀ es later path, ((System.start t₀).run es).now ≤ later →
        (((System.start t₀).run es).throttler.attemptCleared later path).2 ≠ .overflow := by
  intro t₀
  have hnew : new doublyLinked = .ok t₀ := by rfl
  have hf : t₀.FitsWords := by decide
  exact ⟨hnew, by decide, hf, fun es later path hlater =>
    ((run_sums_fit doublyLinked t₀ hnew).2.1 hf es later path hlater).2⟩

/-- Requests so heavy that two of them are no word. -/
def heavyRequests : Settings where
  limits := [{ path := "/orders", limit := 3000000000, window := 1000, weight := 2200000000 }]

/-- Requests charged twice to a pool, so heavily that both charges are no word. -/
def heavyLinks : Settings where
  limits := [
    { path := "/orders", limit := 10, window := 1000,
      linked := [⟨"pool", 2147483648⟩, ⟨"pool", 2147483648⟩] },
    { path := "pool", limit := 4294967295, window := 1000 }]

/-- **Sums that are no words.** Both settings are accepted. Beside one heavy request a second one
has a sum of 4400000000, so its attempt does not find the limit full but overflows. A single request
charged twice to the pool leaves 4294967296 there, which is no occupancy. -/
theorem sums_leave_words :
    let t₀ : Throttler :=
      { limits := heavyRequests.limits, margin := heavyRequests.margin,
        retry := heavyRequests.retry, retry_pos := by decide }
    let t₁ := (t₀.attempt 0 "/orders").1
    let u₀ : Throttler :=
      { limits := heavyLinks.limits, margin := heavyLinks.margin, retry := heavyLinks.retry,
        retry_pos := by decide }
    let u₁ := (u₀.attempt 0 "/orders").1
    new heavyRequests = .ok t₀ ∧ (t₀.attempt 0 "/orders").2 = .admitted ∧
      UInt32.size ≤ weightOn "/orders" (t₁.live 0) + 2200000000 ∧
      (t₁.attempt 0 "/orders").2 = .overflow ∧
      new heavyLinks = .ok u₀ ∧ (u₀.attempt 0 "/orders").2 = .admitted ∧
      UInt32.size ≤ weightOn "pool" (u₁.live 0) ∧
      u₁.occupancy 0 "pool" = .error .overflow := by
  refine ⟨by rfl, ?_, ?_, ?_, by rfl, ?_, ?_, ?_⟩
  all_goals decide

end BookFeed.Throttler
