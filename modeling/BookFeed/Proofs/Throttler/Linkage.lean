import BookFeed.Proofs.Throttler.Capacity

/-!
# Limits that one request is charged to twice

An attempt looks for room for each demand by itself, and the admission then charges all of them.
This is the same where no limit is asked for twice, and settings are accepted where one is: a limit
may be linked to itself, and a pool may be listed twice. `KeepsLimits` says that the live charges
are within every limit.

* `weightOn_live_admitted`: an admission adds what it takes of a limit in all;
* `not_keepsLimits_of_takes`: if that is none of the demands, some log within every limit has no
  room for it, and the request is admitted all the same;
* **`keepsLimits_iff_checksWhole`**: so admissions keep every limit exactly if what they take of a
  limit is checked as a whole, and the first one does exactly if it takes no more than the limit.
-/

namespace BookFeed.Throttler

variable {t t' : Throttler} {now : Nat} {path : String} {l limit : RateLimit} {c : Charge}
  {cs : List Charge}

/-- The live charges are within every limit. -/
def KeepsLimits (t : Throttler) (now : Nat) : Prop :=
  ∀ limit ∈ t.limits, weightOn limit.path (t.live now) ≤ limit.limit.toNat

instance (t : Throttler) (now : Nat) : Decidable (t.KeepsLimits now) :=
  inferInstanceAs (Decidable (∀ limit ∈ t.limits, _))

/-! ## What an admission adds -/

theorem Configured.span_pos (hc : Configured t.limits) (hl : l ∈ t.limits) : 0 < t.span l :=
  Nat.add_pos_left (Nat.pos_of_ne_zero (hc.window_pos l hl)) _

theorem live_admitted (t : Throttler) (now : Nat) (l : RateLimit) :
    ({ t with log := t.live now ++ t.charges now l } : Throttler).live now =
      t.live now ++ (t.charges now l).filter (t.isLive now) := by
  have hsame : Same t { t with log := t.live now ++ t.charges now l } := ⟨rfl, rfl⟩
  rw [live, hsame.isLive, List.filter_append, filter_isLive (Nat.le_refl now)]
  rfl

/-- **An admission adds what it takes of a limit in all.** -/
theorem weightOn_live_admitted (hc : Configured t.limits) (hlimit : limit ∈ t.limits)
    (h : t.attempt now path = (t', .admitted)) :
    weightOn limit.path (t'.live now) =
      weightOn limit.path (t.live now) + t.takes limit path := by
  have ha := attempt_attempted t now path
  rw [h] at ha
  cases ha with
  | admitted _ hl =>
    rw [live_admitted, weightOn_append,
      weightOn_live hc hlimit (fun _ => time_of_mem_charges) (Nat.le_refl now),
      if_pos (Nat.lt_add_of_pos_right (hc.span_pos hlimit)), weightOn_charges hc hlimit hl]

/-- What is admitted has a limit, and only the log has changed. -/
theorem of_admitted (h : t.attempt now path = (t', .admitted)) :
    t'.limits = t.limits ∧ ∃ l, t.limit? path = some l ∧
      ∀ d ∈ t.demands l, weightOn d.1.path (t.live now) + d.2.toNat ≤ d.1.limit.toNat := by
  have ha := attempt_attempted t now path
  rw [h] at ha
  cases ha with
  | admitted _ hl hroom => exact ⟨rfl, _, hl, hroom⟩

/-- Where each limit is checked as a whole, an admission keeps all limits. -/
theorem KeepsLimits.admit (hk : t.KeepsLimits now) (hc : Configured t.limits)
    (hw : t.ChecksWhole) (h : t.attempt now path = (t', .admitted)) : t'.KeepsLimits now := by
  obtain ⟨hlimits, l, hl, hroom⟩ := of_admitted h
  intro limit hlimit
  rw [hlimits] at hlimit
  rw [weightOn_live_admitted hc hlimit h]
  exact takes_le hw hlimit hl hroom (hk limit hlimit)

/-! ## What is taken beyond each demand -/

theorem weight_le_weightOn (h : c ∈ cs) : c.weight.toNat ≤ weightOn c.path cs := by
  induction cs with
  | nil => exact absurd h List.not_mem_nil
  | cons c' cs ih =>
    rw [weightOn_cons]
    rcases List.mem_cons.mp h with rfl | h
    · rw [if_pos rfl]
      exact Nat.le_add_right _ _
    · exact (ih h).trans (Nat.le_add_left _ _)

/-- What is demanded of a limit is part of what is taken of it. -/
theorem demand_le_takes (hc : Configured t.limits) (hl : l ∈ t.limits) {d : RateLimit × UInt32}
    (hd : d ∈ t.demands l) : d.2.toNat ≤ t.takes d.1 l.path := by
  rw [← weightOn_charges hc (demand_le hc hl hd).1 (limit?_of_mem hc hl) 0]
  exact weight_le_weightOn (c := ⟨0, d.1.path, d.2⟩) (List.mem_map.mpr ⟨d, hd, rfl⟩)

/-- A log of one charge, which is live. -/
theorem live_single (hc : Configured t.limits) (hlimit : limit ∈ t.limits) (now : Nat)
    (w : UInt32) : ({ t with log := [⟨now, limit.path, w⟩] } : Throttler).live now =
      [⟨now, limit.path, w⟩] := by
  have hsame : Same t { t with log := [⟨now, limit.path, w⟩] } := ⟨rfl, rfl⟩
  have hlive : t.isLive now ⟨now, limit.path, w⟩ = true := by
    rw [isLive, limit?_of_mem hc hlimit]
    exact decide_eq_true (by rw [Nat.sub_self]; exact hc.span_pos hlimit)
  rw [live, hsame.isLive, List.filter_cons_of_pos hlive]
  rfl

theorem weightOn_single (path : String) (c : Charge) :
    weightOn path [c] = if c.path = path then c.weight.toNat else 0 := by
  rw [weightOn_cons]
  rfl

/-- **A limit that is not checked as a whole can be exceeded.** One charge leaves room for the
largest of the demands and not for all that the admission takes. -/
theorem not_keepsLimits_of_takes (hc : Configured t.limits) (hs : t.stopped = false)
    (hl : l ∈ t.limits) (hlimit : limit ∈ t.limits) (htakes : t.takes limit l.path ≠ 0)
    (hmore : ∀ w : UInt32, (limit, w) ∈ t.demands l → t.takes limit l.path ≠ w.toNat)
    (now : Nat) : ∃ log t', ({ t with log } : Throttler).KeepsLimits now ∧
      ({ t with log } : Throttler).attempt now l.path = (t', .admitted) ∧
      ¬ t'.KeepsLimits now := by
  have hword := limit.limit.toNat_lt
  obtain ⟨w, hw⟩ : ∃ w : UInt32,
      w.toNat = limit.limit.toNat - (t.takes limit l.path - 1) :=
    ⟨UInt32.ofNat _, UInt32.toNat_ofNat_of_lt' (show _ < 2 ^ 32 by omega)⟩
  have hlive := live_single hc hlimit now w
  have hroom : ∀ d ∈ t.demands l, weightOn d.1.path
      (({ t with log := [⟨now, limit.path, w⟩] } : Throttler).live now) + d.2.toNat ≤
        d.1.limit.toNat := by
    rintro ⟨pool, v⟩ hd
    obtain ⟨hpool, hle⟩ := demand_le hc hl hd
    simp only at hpool hle ⊢
    rw [hlive, weightOn_single]
    by_cases hp : limit.path = pool.path
    · obtain rfl := eq_of_path hc hlimit hpool hp
      have hpart : v.toNat ≤ t.takes limit l.path := demand_le_takes hc hl hd
      have hless := hmore v hd
      simp only [if_pos]
      omega
    · simp only [if_neg hp, Nat.zero_add]
      exact hle
  have hadmitted := attempt_of_room (t := { t with log := [⟨now, limit.path, w⟩] }) hs
    (limit?_of_mem hc hl) hroom
  refine ⟨_, _, fun pool hpool => ?_, hadmitted, fun hk => ?_⟩
  · rw [hlive, weightOn_single]
    split
    · rename_i hp
      obtain rfl := eq_of_path hc hlimit hpool hp
      simp only
      omega
    · exact Nat.zero_le _
  · have hover := hk limit hlimit
    rw [weightOn_live_admitted (t := { t with log := [⟨now, limit.path, w⟩] }) hc hlimit hadmitted,
      hlive, weightOn_single, if_pos rfl] at hover
    have hsame : ({ t with log := [⟨now, limit.path, w⟩] } : Throttler).takes limit l.path =
        t.takes limit l.path := rfl
    simp only at hover
    omega

theorem checksWhole_of_keepsLimits (hc : Configured t.limits) (hs : t.stopped = false)
    (h : ∀ log now path t', ({ t with log } : Throttler).KeepsLimits now →
      ({ t with log } : Throttler).attempt now path = (t', .admitted) → t'.KeepsLimits now) :
    t.ChecksWhole := by
  intro l hl limit hlimit
  by_contra hnot
  rw [not_or] at hnot
  obtain ⟨htakes, hmore⟩ := hnot
  obtain ⟨log, t', hk, hadmitted, hover⟩ := not_keepsLimits_of_takes hc hs hl hlimit htakes
    (fun w hw he => hmore ⟨w, hw, he⟩) 0
  exact hover (h log 0 l.path t' hk hadmitted)

/-! ## The first admission -/

/-- With nothing charged, every limit admits a request on its path. -/
theorem attempt_of_nil (hc : Configured t.limits) (hs : t.stopped = false) (hlog : t.log = [])
    (hl : l ∈ t.limits) (now : Nat) : ∃ t', t.attempt now l.path = (t', .admitted) := by
  refine ⟨_, attempt_of_room hs (limit?_of_mem hc hl) fun d hd => ?_⟩
  rw [live, hlog]
  exact (Nat.zero_add _).trans_le (demand_le hc hl hd).2

theorem weightOn_first (hc : Configured t.limits) (hlog : t.log = []) (hlimit : limit ∈ t.limits)
    (h : t.attempt now path = (t', .admitted)) :
    weightOn limit.path (t'.live now) = t.takes limit path := by
  rw [weightOn_live_admitted hc hlimit h, live, hlog]
  exact Nat.zero_add _

theorem first_keepsLimits_iff (hc : Configured t.limits) (hs : t.stopped = false)
    (hlog : t.log = []) :
    (∀ l ∈ t.limits, ∀ limit ∈ t.limits, t.takes limit l.path ≤ limit.limit.toNat) ↔
      ∀ now path t', t.attempt now path = (t', .admitted) → t'.KeepsLimits now := by
  constructor
  · intro hle now path t' h limit hlimit
    obtain ⟨hlimits, l, hl, -⟩ := of_admitted h
    rw [hlimits] at hlimit
    obtain rfl := limit?_path hl
    rw [weightOn_first hc hlog hlimit h]
    exact hle l (limit?_mem hl) limit hlimit
  · intro h l hl limit hlimit
    obtain ⟨t', hadmitted⟩ := attempt_of_nil hc hs hlog hl 0
    rw [← weightOn_first hc hlog hlimit hadmitted]
    exact h 0 l.path t' hadmitted limit ((of_admitted hadmitted).1 ▸ hlimit)

/-! ## Every run -/

/-- A limit linked to itself, with no weight. -/
def weightlessLink : Settings where
  limits := [
    { path := "/orders", limit := 3, window := 1000, weight := 2, linked := [⟨"/orders", 0⟩] }]

/-- A pool listed twice. -/
def doublyLinked : Settings where
  limits := [
    { path := "/orders", limit := 10, window := 1000, linked := [⟨"pool", 1⟩, ⟨"pool", 1⟩] },
    { path := "pool", limit := 3, window := 1000 }]

/-- A limit linked to itself, that has room for one request. -/
def selfLinked : Settings where
  limits := [
    { path := "/orders", limit := 1, window := 1000, linked := [⟨"/orders", 1⟩] }]

/-- **When linked limits are kept.** Take settings that are accepted, whatever they are linked to.
If what an admission takes of a limit is checked as a whole, then after every interleaving of calls
the live charges are within every limit. This is exactly what it takes for admissions to keep every
limit from any log that does, and the first admission keeps every limit exactly if no admission
takes more of a limit than there is. -/
theorem keepsLimits_iff_checksWhole (settings : Settings) (t₀ : Throttler)
    (hnew : new settings = .ok t₀) :
    (t₀.ChecksWhole → ∀ es, ((System.start t₀).run es).throttler.KeepsLimits
      ((System.start t₀).run es).now) ∧
    (t₀.ChecksWhole ↔ ∀ log now path t', ({ t₀ with log } : Throttler).KeepsLimits now →
      ({ t₀ with log } : Throttler).attempt now path = (t', .admitted) → t'.KeepsLimits now) ∧
    ((∀ l ∈ t₀.limits, ∀ limit ∈ t₀.limits, t₀.takes limit l.path ≤ limit.limit.toNat) ↔
      ∀ now path t', t₀.attempt now path = (t', .admitted) → t'.KeepsLimits now) := by
  have hc := new_configured hnew
  obtain ⟨-, -, -, -, hlog, hs⟩ := new_ok hnew
  refine ⟨fun hw es => ?_, ⟨fun hw log now path t' hk h => ?_, checksWhole_of_keepsLimits hc hs⟩,
    first_keepsLimits_iff hc hs hlog⟩
  · have hk := run_kept_of_whole hc hw hlog es
    intro limit hlimit
    have hmem : limit ∈ t₀.limits := hk.same.limits ▸ hlimit
    rw [hk.told limit hmem _ (Nat.le_refl _)]
    exact hk.bounded limit hmem _
  · exact hk.admit hc (Same.checksWhole (t := { t₀ with log }) ⟨rfl, rfl⟩ hw) h

/-- A link of a limit to itself that weighs nothing does no harm, although it is no simple link. -/
theorem keepsLimits_iff_checksWhole_weightless :
    let t₀ : Throttler :=
      { limits := weightlessLink.limits, margin := weightlessLink.margin,
        retry := weightlessLink.retry, retry_pos := by decide }
    new weightlessLink = .ok t₀ ∧ ¬ SimplyLinked t₀.limits ∧ t₀.ChecksWhole ∧
      ∀ es, ((System.start t₀).run es).throttler.KeepsLimits ((System.start t₀).run es).now := by
  intro t₀
  have hnew : new weightlessLink = .ok t₀ := by rfl
  have hw : t₀.ChecksWhole := by
    intro l hl limit hlimit
    obtain rfl := List.mem_singleton.mp hl
    obtain rfl := List.mem_singleton.mp hlimit
    exact .inr ⟨2, by decide, by decide⟩
  exact ⟨hnew, by decide, hw, (keepsLimits_iff_checksWhole weightlessLink t₀ hnew).1 hw⟩

/-- **A pool listed twice, and a limit linked to itself.** Both settings are accepted. The second
request is charged to the pool with 2 where there is room for 1, and a single request is charged
with 2 to the limit of 1 that is linked to itself. -/
theorem charged_twice_exceeds :
    let t₀ : Throttler :=
      { limits := doublyLinked.limits, margin := doublyLinked.margin,
        retry := doublyLinked.retry, retry_pos := by decide }
    let t₁ := (t₀.attempt 0 "/orders").1
    let t₂ := (t₁.attempt 0 "/orders").1
    let u₀ : Throttler :=
      { limits := selfLinked.limits, margin := selfLinked.margin, retry := selfLinked.retry,
        retry_pos := by decide }
    let u₁ := (u₀.attempt 0 "/orders").1
    new doublyLinked = .ok t₀ ∧ (t₀.attempt 0 "/orders").2 = .admitted ∧ t₁.KeepsLimits 0 ∧
      (t₁.attempt 0 "/orders").2 = .admitted ∧ t₂.occupancy 0 "pool" = .ok 4 ∧
      ¬ t₂.KeepsLimits 0 ∧
      new selfLinked = .ok u₀ ∧ (u₀.attempt 0 "/orders").2 = .admitted ∧
      u₁.occupancy 0 "/orders" = .ok 2 ∧ ¬ u₁.KeepsLimits 0 := by
  refine ⟨by rfl, ?_, ?_, ?_, ?_, ?_, by rfl, ?_⟩
  all_goals decide

end BookFeed.Throttler
