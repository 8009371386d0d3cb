import BookFeed.Proofs.Throttler.Settings
import Mathlib.Algebra.GroupWithZero.Nat

/-!
# What an attempt charges

`takes` is what one admission on a path takes of a limit: its own weight if the limit is that of the
path, and the linked weight if the limit is a pool of the path. `Attempted` lists what can become of
an attempt, with the room there was, and `attempt_attempted` says that `attempt` does one of these.

* `weightOn_charges`: an admission charges each limit what it `takes` of it;
* `live_admit`, `weightOn_live_charges`: what is live later of the charges that an admission leaves;
* **`takes_le`**: where what an admission takes of a limit is checked as a whole (`ChecksWhole`), as
  it is where limits are linked simply, an admission leaves every limit kept.
-/

namespace BookFeed.Throttler

variable {t t' : Throttler} {now later : Nat} {path : String} {l limit pool : RateLimit}
  {c : Charge} {cs : List Charge}

/-! ## Weights -/

theorem weightOn_eq (path : String) (cs : List Charge) (n : Nat) :
    cs.foldl (fun sum c => if c.path = path then sum + c.weight.toNat else sum) n =
      n + weightOn path cs := by
  induction cs generalizing n with
  | nil => rfl
  | cons c cs ih =>
    unfold weightOn
    simp only [List.foldl_cons]
    rw [ih, ih (if c.path = path then 0 + c.weight.toNat else 0)]
    split <;> omega

theorem weightOn_cons : weightOn path (c :: cs) =
    (if c.path = path then c.weight.toNat else 0) + weightOn path cs := by
  conv_lhs => rw [weightOn, List.foldl_cons]
  rw [weightOn_eq]
  split <;> omega

theorem weightOn_append (path : String) (cs cs' : List Charge) :
    weightOn path (cs ++ cs') = weightOn path cs + weightOn path cs' := by
  rw [weightOn, List.foldl_append, weightOn_eq]
  rfl

/-! ## Finding limits -/

theorem limit?_mem (h : t.limit? path = some l) : l ∈ t.limits := List.mem_of_find?_eq_some h

theorem limit?_path (h : t.limit? path = some l) : l.path = path := by
  simpa using List.find?_some h

theorem limit?_of_mem (hc : Configured t.limits) (hl : l ∈ t.limits) :
    t.limit? l.path = some l := hc.find hl

theorem eq_of_path (hc : Configured t.limits) (hl : l ∈ t.limits) (h' : limit ∈ t.limits)
    (hp : l.path = limit.path) : l = limit := by
  have hfound := limit?_of_mem hc hl
  rw [hp, limit?_of_mem hc h'] at hfound
  exact (Option.some.inj hfound).symm

/-! ## What an admission takes -/

/-- What an admission on `path` takes of `limit`. -/
def takes (t : Throttler) (limit : RateLimit) (path : String) : Nat :=
  match t.limit? path with
  | none => 0
  | some l => (if l.path = limit.path then l.weight.toNat else 0) +
      ((l.linked.filter (·.path = limit.path)).map (·.weight.toNat)).sum

/-- The charges of an admission under `l`. -/
def charges (t : Throttler) (now : Nat) (l : RateLimit) : List Charge :=
  (t.demands l).map fun (d, w) => ⟨now, d.path, w⟩

theorem weightOn_linked (hc : Configured t.limits) (hl : limit ∈ t.limits) (now : Nat)
    (ks : List LinkedLimit) :
    weightOn limit.path
        ((ks.filterMap fun k => (t.limit? k.path).map fun pool => (pool, k.weight)).map
          fun (d, w) => (⟨now, d.path, w⟩ : Charge)) =
      ((ks.filter (·.path = limit.path)).map (·.weight.toNat)).sum := by
  induction ks with
  | nil => rfl
  | cons k ks ih =>
    cases hpool : t.limit? k.path with
    | none =>
      have hne : ¬ k.path = limit.path := fun he => by
        rw [he, limit?_of_mem hc hl] at hpool
        exact absurd hpool (by simp)
      rw [List.filterMap_cons_none (by rw [hpool]; rfl),
        List.filter_cons_of_neg (by simpa using hne), ih]
    | some pool =>
      have hp := limit?_path hpool
      rw [List.filterMap_cons_some (by rw [hpool]; rfl), List.map_cons, weightOn_cons, ih]
      simp only [hp]
      by_cases he : k.path = limit.path
      · rw [if_pos he, List.filter_cons_of_pos (by simpa using he), List.map_cons, List.sum_cons]
      · rw [if_neg he, List.filter_cons_of_neg (by simpa using he), Nat.zero_add]

/-- An admission charges each limit what it takes of it. -/
theorem weightOn_charges (hc : Configured t.limits) (hlimit : limit ∈ t.limits)
    (hl : t.limit? path = some l) (now : Nat) :
    weightOn limit.path (t.charges now l) = t.takes limit path := by
  unfold charges demands takes
  rw [hl, List.map_cons, weightOn_cons, weightOn_linked hc hlimit]

theorem time_of_mem_charges (h : c ∈ t.charges now l) : c.time = now := by
  obtain ⟨d, -, rfl⟩ := List.mem_map.mp h
  rfl

theorem takes_of_unlimited (h : t.limit? path = none) : t.takes limit path = 0 := by
  unfold takes
  rw [h]

/-! ## Live charges -/

theorem isLive_mono (h : now ≤ later) (hlive : t.isLive later c = true) :
    t.isLive now c = true := by
  unfold isLive at hlive ⊢
  cases hl : t.limit? c.path with
  | none =>
    rw [hl] at hlive
    exact hlive
  | some l =>
    rw [hl] at hlive
    simp only [decide_eq_true_eq] at hlive ⊢
    omega

/-- Charges that were forgotten are not live later. -/
theorem filter_isLive (h : now ≤ later) :
    (t.live now).filter (t.isLive later) = t.log.filter (t.isLive later) := by
  unfold live
  rw [List.filter_filter]
  refine List.filter_congr fun c _ => ?_
  rw [Bool.and_eq_left_iff_imp]
  exact isLive_mono h

/-- Charges of one time count for as long as the span of their limit. -/
theorem weightOn_live (hc : Configured t.limits) (hl : limit ∈ t.limits)
    (htime : ∀ c ∈ cs, c.time = now) (h : now ≤ later) :
    weightOn limit.path (cs.filter (t.isLive later)) =
      if later < now + t.span limit then weightOn limit.path cs else 0 := by
  induction cs with
  | nil => exact (ite_self _).symm
  | cons c cs ih =>
    have ih := ih fun c hc => htime c (List.mem_cons_of_mem _ hc)
    have hlive : c.path = limit.path →
        (t.isLive later c = true ↔ later < now + t.span limit) := by
      intro hp
      unfold isLive
      rw [hp, limit?_of_mem hc hl]
      simp only [decide_eq_true_eq, htime c List.mem_cons_self]
      omega
    by_cases hlater : later < now + t.span limit
    · rw [if_pos hlater] at ih ⊢
      by_cases hp : c.path = limit.path
      · rw [List.filter_cons_of_pos ((hlive hp).mpr hlater), weightOn_cons, weightOn_cons, ih]
      · rw [weightOn_cons, if_neg hp, Nat.zero_add, ← ih, List.filter_cons]
        split
        · rw [weightOn_cons, if_neg hp, Nat.zero_add]
        · rfl
    · rw [if_neg hlater] at ih ⊢
      by_cases hp : c.path = limit.path
      · rw [List.filter_cons_of_neg fun hn => hlater ((hlive hp).mp hn), ih]
      · rw [List.filter_cons]
        split
        · rw [weightOn_cons, if_neg hp, Nat.zero_add, ih]
        · exact ih

/-! ## What can become of an attempt -/

/-- What can become of an attempt to be admitted. -/
inductive Attempted (t : Throttler) (now : Nat) (path : String) : Throttler → Attempt → Prop where
  | cancelled (hs : t.stopped = true) : Attempted t now path t .cancelled
  | unlimited (hs : t.stopped = false) (h : t.limit? path = none) :
      Attempted t now path t .unlimited
  | admitted {l : RateLimit} (hs : t.stopped = false) (hl : t.limit? path = some l)
      (h : ∀ d ∈ t.demands l, weightOn d.1.path (t.live now) + d.2.toNat ≤ d.1.limit.toNat) :
      Attempted t now path { t with log := t.live now ++ t.charges now l } .admitted
  | full {l : RateLimit} (hs : t.stopped = false) (hl : t.limit? path = some l)
      (h : ∃ d ∈ t.demands l, d.1.limit.toNat < weightOn d.1.path (t.live now) + d.2.toNat) :
      Attempted t now path { t with log := t.live now } .full
  | overflow {l : RateLimit} (hs : t.stopped = false) (hl : t.limit? path = some l)
      (h : ∃ d ∈ t.demands l, UInt32.size ≤ weightOn d.1.path (t.live now) + d.2.toNat) :
      Attempted t now path { t with log := t.live now } .overflow

theorem word_of_lt {n : Nat} (h : n < UInt32.size) : word n = .ok (UInt32.ofNat n) := if_pos h

theorem hasRoom_of_lt {d : RateLimit × UInt32}
    (h : weightOn d.1.path cs + d.2.toNat < UInt32.size) :
    hasRoom cs d = .ok (decide (weightOn d.1.path cs + d.2.toNat ≤ d.1.limit.toNat)) := by
  unfold hasRoom
  rw [word_of_lt h]
  simp only [Except.map, UInt32.le_iff_toNat_le, UInt32.toNat_ofNat_of_lt' h]

theorem hasRoom_of_le {d : RateLimit × UInt32}
    (h : UInt32.size ≤ weightOn d.1.path cs + d.2.toNat) :
    hasRoom cs d = .error .overflow := by
  unfold hasRoom word
  rw [if_neg (Nat.not_lt.mpr h)]
  rfl

theorem haveRoom_cases (cs : List Charge) : ∀ ds : List (RateLimit × UInt32),
    haveRoom cs ds = .ok true ∧
      (∀ d ∈ ds, weightOn d.1.path cs + d.2.toNat ≤ d.1.limit.toNat) ∨
    haveRoom cs ds = .ok false ∧
      (∃ d ∈ ds, d.1.limit.toNat < weightOn d.1.path cs + d.2.toNat) ∨
    haveRoom cs ds = .error .overflow ∧
      ∃ d ∈ ds, UInt32.size ≤ weightOn d.1.path cs + d.2.toNat
  | [] => .inl ⟨rfl, fun _ h => absurd h List.not_mem_nil⟩
  | d :: ds => by
    unfold haveRoom
    rcases Nat.lt_or_ge (weightOn d.1.path cs + d.2.toNat) UInt32.size with hlt | hge
    · rw [hasRoom_of_lt hlt]
      by_cases hle : weightOn d.1.path cs + d.2.toNat ≤ d.1.limit.toNat
      · rw [decide_eq_true hle]
        simp only
        rcases haveRoom_cases cs ds with ⟨hr, h⟩ | ⟨hr, d', hd', h⟩ | ⟨hr, d', hd', h⟩
        · exact .inl ⟨hr, List.forall_mem_cons.mpr ⟨hle, h⟩⟩
        · exact .inr (.inl ⟨hr, d', List.mem_cons_of_mem _ hd', h⟩)
        · exact .inr (.inr ⟨hr, d', List.mem_cons_of_mem _ hd', h⟩)
      · rw [decide_eq_false hle]
        exact .inr (.inl ⟨rfl, d, List.mem_cons_self, Nat.lt_of_not_le hle⟩)
    · rw [hasRoom_of_le hge]
      exact .inr (.inr ⟨rfl, d, List.mem_cons_self, hge⟩)

/-- **`attempt` does one of the things listed.** -/
theorem attempt_attempted (t : Throttler) (now : Nat) (path : String) :
    Attempted t now path (t.attempt now path).1 (t.attempt now path).2 := by
  unfold attempt
  split
  · rename_i hs
    exact .cancelled hs
  · rename_i hs
    rw [Bool.not_eq_true] at hs
    cases hl : t.limit? path with
    | none => exact .unlimited hs hl
    | some l =>
      rcases haveRoom_cases (t.live now) (t.demands l) with ⟨hr, h⟩ | ⟨hr, h⟩ | ⟨hr, h⟩
      · simp only [hr]
        exact .admitted hs hl h
      · simp only [hr]
        exact .full hs hl h
      · simp only [hr]
        exact .overflow hs hl h

/-- Where there is room for each demand, a request is admitted. -/
theorem attempt_of_room (hs : t.stopped = false) (hl : t.limit? path = some l)
    (hroom : ∀ d ∈ t.demands l, weightOn d.1.path (t.live now) + d.2.toNat ≤ d.1.limit.toNat) :
    t.attempt now path = ({ t with log := t.live now ++ t.charges now l }, .admitted) := by
  have h := attempt_attempted t now path
  generalize t.attempt now path = done at h ⊢
  obtain ⟨t', a⟩ := done
  cases h with
  | cancelled hn => exact absurd (hs.symm.trans hn) Bool.false_ne_true
  | unlimited _ hn => exact absurd (hn.symm.trans hl) (by simp)
  | admitted _ hl' =>
    obtain rfl := Option.some.inj (hl'.symm.trans hl)
    rfl
  | full _ hl' h =>
    obtain rfl := Option.some.inj (hl'.symm.trans hl)
    obtain ⟨d, hd, hlt⟩ := h
    exact absurd (hroom d hd) (Nat.not_le.mpr hlt)
  | overflow _ hl' h =>
    obtain rfl := Option.some.inj (hl'.symm.trans hl)
    obtain ⟨d, hd, hle⟩ := h
    have hlt : d.1.limit.toNat < UInt32.size := d.1.limit.toNat_lt
    exact absurd (hroom d hd) (Nat.not_le.mpr (Nat.lt_of_lt_of_le hlt hle))

/-- An attempt writes the log only. -/
theorem Attempted.stopped_eq {a : Attempt} (h : Attempted t now path t' a) :
    t'.stopped = t.stopped := by
  cases h <;> rfl

/-! ## Simple links -/

/-- No limit is linked to itself, or to one pool twice. -/
def SimplyLinked (limits : List RateLimit) : Prop :=
  ∀ l ∈ limits, (∀ k ∈ l.linked, k.path ≠ l.path) ∧ (l.linked.map (·.path)).Nodup

instance (limits : List RateLimit) : Decidable (SimplyLinked limits) :=
  inferInstanceAs (Decidable (∀ l ∈ limits, _))

theorem new_simplyLinked {s : Settings} (h : new s = .ok t) (hs : SimplyLinked s.limits) :
    SimplyLinked t.limits := by
  intro l hl
  obtain ⟨l', hl', limit, rfl⟩ := new_from h l hl
  exact hs l' hl'

/-- Of links to distinct pools, one at most leads to a given pool. -/
theorem sum_linked {ks : List LinkedLimit} (h : (ks.map (·.path)).Nodup) (path : String) :
    ((ks.filter (·.path = path)).map (·.weight.toNat)).sum = 0 ∨
      ∃ k ∈ ks, k.path = path ∧
        ((ks.filter (·.path = path)).map (·.weight.toNat)).sum = k.weight.toNat := by
  induction ks with
  | nil => exact .inl rfl
  | cons k ks ih =>
    rw [List.map_cons, List.nodup_cons] at h
    by_cases hp : k.path = path
    · have hnone : ks.filter (·.path = path) = [] := by
        rw [List.filter_eq_nil_iff]
        intro k' hk' hp'
        rw [decide_eq_true_eq] at hp'
        exact h.1 (List.mem_map.mpr ⟨k', hk', hp'.trans hp.symm⟩)
      refine .inr ⟨k, List.mem_cons_self, hp, ?_⟩
      rw [List.filter_cons_of_pos (by simpa using hp), hnone]
      rfl
    · rw [List.filter_cons_of_neg (by simpa using hp)]
      exact (ih h.2).imp_right fun ⟨k', hk', hw⟩ => ⟨k', List.mem_cons_of_mem _ hk', hw⟩

/-- An admission takes nothing of a limit, or what it demands of it. -/
theorem takes_cases (hc : Configured t.limits) (hs : SimplyLinked t.limits)
    (hlimit : limit ∈ t.limits) (hl : t.limit? path = some l) :
    t.takes limit path = 0 ∨
      ∃ w : UInt32, (limit, w) ∈ t.demands l ∧ t.takes limit path = w.toNat := by
  have hmem := limit?_mem hl
  obtain ⟨hself, hnodup⟩ := hs l hmem
  unfold takes demands
  rw [hl]
  simp only
  by_cases hp : l.path = limit.path
  · have hnone : l.linked.filter (·.path = limit.path) = [] := by
      rw [List.filter_eq_nil_iff]
      intro k hk hk'
      rw [decide_eq_true_eq] at hk'
      exact hself k hk (hk'.trans hp.symm)
    rw [if_pos hp, hnone]
    obtain rfl := eq_of_path hc hmem hlimit hp
    exact .inr ⟨l.weight, List.mem_cons_self, rfl⟩
  · rw [if_neg hp, Nat.zero_add]
    refine (sum_linked hnodup limit.path).imp_right fun ⟨k, hk, hkp, hw⟩ => ⟨k.weight, ?_, hw⟩
    refine List.mem_cons_of_mem _ (List.mem_filterMap.mpr ⟨k, hk, ?_⟩)
    rw [hkp, limit?_of_mem hc hlimit]
    rfl

/-- Whatever an admission takes of a limit in all, it is what one of its demands asks for, so that
the room for it is looked for as a whole. -/
def ChecksWhole (t : Throttler) : Prop :=
  ∀ l ∈ t.limits, ∀ limit ∈ t.limits, t.takes limit l.path = 0 ∨
    ∃ w : UInt32, (limit, w) ∈ t.demands l ∧ t.takes limit l.path = w.toNat

theorem SimplyLinked.checksWhole (hs : SimplyLinked t.limits) (hc : Configured t.limits) :
    t.ChecksWhole := fun _ hl _ hlimit => takes_cases hc hs hlimit (limit?_of_mem hc hl)

/-- **An admission keeps every limit** that it checks as a whole, given that the charges before it
do. -/
theorem takes_le (hw : t.ChecksWhole) (hlimit : limit ∈ t.limits) (hl : t.limit? path = some l)
    (hroom : ∀ d ∈ t.demands l, weightOn d.1.path cs + d.2.toNat ≤ d.1.limit.toNat)
    (hkept : weightOn limit.path cs ≤ limit.limit.toNat) :
    weightOn limit.path cs + t.takes limit path ≤ limit.limit.toNat := by
  obtain rfl := limit?_path hl
  rcases hw l (limit?_mem hl) limit hlimit with h | ⟨w, hw, h⟩
  · rw [h]
    exact hkept
  · rw [h]
    exact hroom (limit, w) hw

/-- What is demanded of a limit is no more than the limit. -/
theorem demand_le (hc : Configured t.limits) (hl : l ∈ t.limits) {d : RateLimit × UInt32}
    (hd : d ∈ t.demands l) : d.1 ∈ t.limits ∧ d.2.toNat ≤ d.1.limit.toNat := by
  rcases List.mem_cons.mp hd with rfl | hd
  · exact ⟨hl, UInt32.le_iff_toNat_le.mp (hc.weight_le l hl)⟩
  · obtain ⟨k, hk, hpool⟩ := List.mem_filterMap.mp hd
    obtain ⟨pool, hfind, hle⟩ := hc.linked l hl k hk
    rw [show t.limit? k.path = some pool from hfind] at hpool
    obtain rfl := Option.some.inj hpool
    exact ⟨List.mem_of_find?_eq_some hfind, UInt32.le_iff_toNat_le.mp hle⟩

end BookFeed.Throttler
