import BookFeed.Proofs.Throttler.Linkage
import Mathlib.Data.List.Induction

/-!
# Forgetting changes no decision

Every attempt, on whatever path, makes the throttler forget the charges that are no longer live.
`Chronicle` is a throttler with the list of all its admissions, and `allCharges` is the log that
nothing is ever dropped from. What a later attempt still counts of the log is what it would count of
this one (`Told`), because a charge that is not live at some time is not live later either.

* `Told.attempt`: every attempt keeps this;
* `weightOn_allCharges`: what counts in the full log is the load of the admissions;
* **`admitted_iff_room_in_history`**: so a request is admitted exactly if beside the loads of all
  earlier admissions there is room for each of its demands.
-/

namespace BookFeed.Throttler

/-- A request that makes one attempt. -/
structure Arrival where
  time : Nat
  path : String
deriving DecidableEq

/-- A throttler and all the admissions it has given, the oldest first. -/
structure Chronicle where
  throttler : Throttler
  admissions : List Admission := []

namespace Chronicle

/-- Makes an attempt, and notes whether it was admitted. -/
def attempt (c : Chronicle) (x : Arrival) : Chronicle :=
  match c.throttler.attempt x.time x.path with
  | (throttler, .admitted) => ⟨throttler, c.admissions ++ [⟨x.path, x.time, 0, true⟩]⟩
  | (throttler, _) => { c with throttler }

def run (c : Chronicle) (xs : List Arrival) : Chronicle := xs.foldl attempt c

theorem run_concat (c : Chronicle) (xs : List Arrival) (x : Arrival) :
    c.run (xs ++ [x]) = (c.run xs).attempt x := List.foldl_concat ..

end Chronicle

/-- What admissions have charged, with nothing forgotten. -/
def allCharges (t : Throttler) (as : List Admission) : List Charge :=
  as.flatMap fun a => (t.limit? a.path).elim [] (t.charges a.time)

variable {t t' t₀ : Throttler} {c : Chronicle} {x : Arrival} {now later : Nat} {path : String}
  {l limit : RateLimit} {as : List Admission} {d : RateLimit × UInt32} {xs : List Arrival}

/-! ## The full log -/

theorem allCharges_cons (a : Admission) (as : List Admission) : t.allCharges (a :: as) =
    (t.limit? a.path).elim [] (t.charges a.time) ++ t.allCharges as := List.flatMap_cons

theorem allCharges_concat (a : Admission) (as : List Admission) : t.allCharges (as ++ [a]) =
    t.allCharges as ++ (t.limit? a.path).elim [] (t.charges a.time) := by
  rw [allCharges, List.flatMap_append, List.flatMap_singleton]
  rfl

/-- One admission counts for the span of the limit. -/
theorem weightOn_admission (hc : Configured t.limits) (hlimit : limit ∈ t.limits)
    {a : Admission} (h : a.time ≤ now) :
    weightOn limit.path
        (((t.limit? a.path).elim [] (t.charges a.time)).filter (t.isLive now)) =
      if a.time ≤ now ∧ now < a.time + t.span limit then t.takes limit a.path else 0 := by
  cases hl : t.limit? a.path with
  | none => rw [takes_of_unlimited hl, ite_self, Option.elim_none, List.filter_nil]; rfl
  | some l =>
    rw [Option.elim_some, weightOn_live hc hlimit (fun _ => time_of_mem_charges) h,
      weightOn_charges hc hlimit hl]
    exact if_congr (and_iff_right h).symm rfl rfl

/-- **What counts in the full log is the load of the admissions.** -/
theorem weightOn_allCharges (hc : Configured t.limits) (hlimit : limit ∈ t.limits)
    (hpast : ∀ a ∈ as, a.time ≤ now) :
    weightOn limit.path ((t.allCharges as).filter (t.isLive now)) = t.load as limit now := by
  induction as with
  | nil => rfl
  | cons a as ih =>
    obtain ⟨ha, has⟩ := List.forall_mem_cons.mp hpast
    rw [allCharges_cons, List.filter_append, weightOn_append, weightOn_admission hc hlimit ha,
      ih has, load_cons]

/-! ## What an attempt sees of a log -/

/-- What becomes of an attempt depends on the charges that are live. -/
theorem attempt_congr (hs : Same t t') (hstop : t'.stopped = t.stopped)
    (hlive : t'.live now = t.live now) (path : String) :
    (t'.attempt now path).2 = (t.attempt now path).2 := by
  unfold attempt
  rw [hstop, hs.limit?]
  split
  · rfl
  · cases t.limit? path with
    | none => rfl
    | some l =>
      simp only [hlive, hs.demands]
      obtain _ | room := haveRoom (t.live now) (t.demands l)
      · rfl
      · cases room <;> rfl

/-- What an attempt leaves of the log. -/
theorem log_attempt (now : Nat) (hstop : t.stopped = false) (hl : t.limit? path = some l) :
    ((t.attempt now path).2 = .admitted →
        (t.attempt now path).1.log = t.live now ++ t.charges now l) ∧
      ((t.attempt now path).2 ≠ .admitted → (t.attempt now path).1.log = t.live now ∧
        ((t.attempt now path).2 = .full ∨ (t.attempt now path).2 = .overflow)) := by
  have h := attempt_attempted t now path
  generalize t.attempt now path = done at h ⊢
  obtain ⟨t', a⟩ := done
  cases h with
  | cancelled hs => exact absurd (hs.symm.trans hstop) (by simp)
  | unlimited _ hn => exact absurd (hn.symm.trans hl) (by simp)
  | admitted _ hl' =>
    obtain rfl := Option.some.inj (hl'.symm.trans hl)
    exact ⟨fun _ => rfl, fun hne => absurd rfl hne⟩
  | full => exact ⟨fun hn => absurd hn (by simp), fun _ => ⟨rfl, .inl rfl⟩⟩
  | overflow => exact ⟨fun hn => absurd hn (by simp), fun _ => ⟨rfl, .inr rfl⟩⟩

/-- **A request is admitted exactly if there is room for each of its demands.** A sum that is no
word leaves no room. -/
theorem admitted_iff_room (now : Nat) (hstop : t.stopped = false) (hl : t.limit? path = some l) :
    (t.attempt now path).2 = .admitted ↔
      ∀ d ∈ t.demands l, weightOn d.1.path (t.live now) + d.2.toNat ≤ d.1.limit.toNat := by
  constructor
  · intro ha
    obtain ⟨-, l', hl', hroom⟩ := of_admitted (Prod.ext rfl ha)
    obtain rfl := Option.some.inj (hl'.symm.trans hl)
    exact hroom
  · intro hroom
    rw [attempt_of_room hstop hl hroom]

theorem weightOn_eq_zero {cs : List Charge} (h : ∀ charge ∈ cs, charge.path ≠ path) :
    weightOn path cs = 0 := by
  induction cs with
  | nil => rfl
  | cons charge cs ih =>
    obtain ⟨hne, hcs⟩ := List.forall_mem_cons.mp h
    rw [weightOn_cons, if_neg hne, ih hcs]

/-- Where no demanded limit has a live charge, a request is admitted. -/
theorem attempt_of_no_charge (hc : Configured t.limits) (hstop : t.stopped = false)
    (hl : t.limit? path = some l)
    (h : ∀ d ∈ t.demands l, ∀ charge ∈ t.live now, charge.path ≠ d.1.path) :
    (t.attempt now path).2 = .admitted := by
  rw [admitted_iff_room now hstop hl]
  intro d hd
  rw [weightOn_eq_zero (h d hd), Nat.zero_add]
  exact (demand_le hc (limit?_mem hl) hd).2

/-- The demands under an accepted limit: its own weight, and that of every link. -/
theorem demands_eq (hc : Configured t.limits) (hl : l ∈ t.limits) :
    (t.demands l).map (fun d => (d.1.path, d.2)) =
      (l.path, l.weight) :: l.linked.map fun k => (k.path, k.weight) := by
  have hlinked : ∀ k ∈ l.linked, ∃ pool, t.limit? k.path = some pool := fun k hk =>
    (hc.linked l hl k hk).imp fun _ h => h.1
  unfold demands
  rw [List.map_cons]
  congr 1
  generalize l.linked = ks at hlinked ⊢
  induction ks with
  | nil => rfl
  | cons k ks ih =>
    obtain ⟨⟨pool, hpool⟩, hks⟩ := List.forall_mem_cons.mp hlinked
    rw [List.filterMap_cons_some (by rw [hpool]; rfl), List.map_cons, List.map_cons, ih hks,
      limit?_path hpool]

/-! ## Every run -/

/-- What the log of a throttler still tells, and what its admissions tell. -/
structure Told (t₀ : Throttler) (now : Nat) (c : Chronicle) : Prop where
  same : Same t₀ c.throttler
  running : c.throttler.stopped = false
  past : ∀ a ∈ c.admissions, a.time ≤ now
  live_eq : ∀ later, now ≤ later →
    c.throttler.live later = (t₀.allCharges c.admissions).filter (t₀.isLive later)

theorem Told.wait (h : Told t₀ now c) (hle : now ≤ later) : Told t₀ later c where
  same := h.same
  running := h.running
  past a ha := (h.past a ha).trans hle
  live_eq time htime := h.live_eq time (hle.trans htime)

/-- **Every attempt keeps what the log tells.** -/
theorem Told.attempt (h : Told t₀ x.time c) : Told t₀ x.time (c.attempt x) := by
  have hcases := attempt_attempted c.throttler x.time x.path
  -- forgetting what is not live now changes nothing that is live later
  have hforgot : ∀ later, x.time ≤ later → (c.throttler.live x.time).filter (t₀.isLive later) =
      (t₀.allCharges c.admissions).filter (t₀.isLive later) := by
    intro later hle
    rw [← h.live_eq later hle, ← h.same.isLive, filter_isLive hle]
    rfl
  unfold Chronicle.attempt
  generalize c.throttler.attempt x.time x.path = done at hcases ⊢
  obtain ⟨t', a⟩ := done
  cases hcases with
  | cancelled hs => exact absurd (hs.symm.trans h.running) (by simp)
  | unlimited => exact h
  | @admitted l _ hl =>
    refine ⟨⟨h.same.limits, h.same.margin⟩, h.running, fun a ha => ?_, fun later hle => ?_⟩
    · rcases List.mem_append.mp ha with ha | ha
      · exact h.past a ha
      · exact (congrArg Admission.time (List.mem_singleton.mp ha)).le
    · have hcharges : c.throttler.charges x.time l = t₀.charges x.time l := by
        rw [charges, charges, h.same.demands]
      have hsame : Same t₀ { c.throttler with
          log := c.throttler.live x.time ++ c.throttler.charges x.time l } :=
        ⟨h.same.limits, h.same.margin⟩
      have hisLive := hsame.isLive later
      rw [h.same.limit?] at hl
      rw [allCharges_concat, hl, Option.elim_some, List.filter_append, ← hforgot later hle,
        ← List.filter_append, ← hcharges, live, hisLive]
  | full | overflow =>
    refine ⟨⟨h.same.limits, h.same.margin⟩, h.running, h.past, fun later hle => ?_⟩
    have hsame : Same t₀ { c.throttler with log := c.throttler.live x.time } :=
      ⟨h.same.limits, h.same.margin⟩
    have hisLive := hsame.isLive later
    rw [← hforgot later hle, live, hisLive]

/-- **After attempts at times that do not go back, the log tells what all admissions tell.** -/
theorem told_run (hlog : t₀.log = []) (hstop : t₀.stopped = false) :
    ∀ {now : Nat}, xs.Pairwise (·.time ≤ ·.time) → (∀ x ∈ xs, x.time ≤ now) →
      Told t₀ now (({ throttler := t₀ } : Chronicle).run xs) := by
  induction xs using List.reverseRecOn with
  | nil =>
    intro now _ _
    refine ⟨.refl t₀, hstop, fun a ha => absurd ha List.not_mem_nil, fun later _ => ?_⟩
    show t₀.live later = [].filter (t₀.isLive later)
    rw [live, hlog]
  | append_singleton xs x ih =>
    intro now hmono hnow
    obtain ⟨hxs, -, hlast⟩ := List.pairwise_append.mp hmono
    have hbefore := ih hxs fun y hy => hlast y hy x List.mem_cons_self
    rw [Chronicle.run_concat]
    exact hbefore.attempt.wait (hnow x List.mem_concat_self)

/-- **The log decides as the full history.** Take settings that are accepted, whatever is linked to
what, and attempts on any paths at times that do not go back. An attempt on a path with a limit that
comes no earlier than these is admitted exactly if for the limit of the path, and for each limit it
is linked to, the weight that earlier admissions took of it within its span, and the weight that is
demanded now, are together no more than the limit. What is admitted is charged once for each demand,
and what is not charges nothing. The outcome is the one that there would be with nothing ever
forgotten, and where the history has no charge on a demanded limit that is younger than its span,
the request is admitted. -/
theorem admitted_iff_room_in_history (settings : Settings) (t₀ : Throttler) (xs : List Arrival)
    (now : Nat) (path : String) (l : RateLimit) (hnew : new settings = .ok t₀)
    (hmono : xs.Pairwise (·.time ≤ ·.time)) (hnow : ∀ x ∈ xs, x.time ≤ now)
    (hl : t₀.limit? path = some l) :
    let c := ({ throttler := t₀ } : Chronicle).run xs
    let done := c.throttler.attempt now path
    ((t₀.demands l).map (fun d => (d.1.path, d.2)) =
      (path, l.weight) :: l.linked.map fun k => (k.path, k.weight)) ∧
    (done.2 = .admitted ↔
      ∀ d ∈ t₀.demands l, t₀.load c.admissions d.1 now + d.2.toNat ≤ d.1.limit.toNat) ∧
    (done.2 = .admitted → done.1.log = c.throttler.live now ++
      (t₀.demands l).map fun d => ⟨now, d.1.path, d.2⟩) ∧
    (done.2 ≠ .admitted → done.1.log = c.throttler.live now ∧
      (done.2 = .full ∨ done.2 = .overflow)) ∧
    done.2 = (({ t₀ with log := t₀.allCharges c.admissions } : Throttler).attempt now path).2 ∧
    ((∀ d ∈ t₀.demands l, ∀ charge ∈ t₀.allCharges c.admissions, charge.path = d.1.path →
      t₀.span d.1 ≤ now - charge.time) → done.2 = .admitted) := by
  intro c done
  have hc := new_configured hnew
  obtain ⟨-, -, -, -, hlog, hstop⟩ := new_ok hnew
  have h : Told t₀ now c := told_run hlog hstop hmono hnow
  have hl' : c.throttler.limit? path = some l := (h.same.limit? path).trans hl
  have hmem := limit?_mem hl
  have hlive := h.live_eq now (Nat.le_refl now)
  have hroom := admitted_iff_room now h.running hl'
  rw [h.same.demands, hlive] at hroom
  obtain ⟨hcharged, hdenied⟩ := log_attempt now h.running hl'
  refine ⟨?_, hroom.trans (forall₂_congr fun d hd => ?_), fun ha => ?_, hdenied, ?_, fun hold => ?_⟩
  · rw [demands_eq hc hmem, limit?_path hl]
  · rw [weightOn_allCharges hc (demand_le hc hmem hd).1 h.past]
  · rw [hcharged ha, charges, h.same.demands]
  · have htwin : Same c.throttler { t₀ with log := t₀.allCharges c.admissions } :=
      ⟨h.same.limits.symm, h.same.margin.symm⟩
    refine (attempt_congr htwin (hstop.trans h.running.symm) ?_ path).symm
    rw [hlive, live, htwin.isLive, h.same.isLive]
  · refine attempt_of_no_charge (h.same.limits ▸ hc) h.running hl' fun d hd charge hcharge hp => ?_
    rw [h.same.demands] at hd
    rw [hlive] at hcharge
    obtain ⟨hcharge, hyoung⟩ := List.mem_filter.mp hcharge
    rw [isLive, hp, limit?_of_mem hc (demand_le hc hmem hd).1, decide_eq_true_eq] at hyoung
    exact absurd (hold d hd charge hcharge hp) (Nat.not_le.mpr hyoung)

/-- Three admissions on two paths, and one request for which there was no room. At the time 1100 the
first charge of the path has gone, and of the pool both. -/
theorem admitted_iff_room_in_history_expired :
    let t₀ : Throttler :=
      { limits := sampleSettings.limits, margin := 100, retry := 50, retry_pos := by decide }
    let xs : List Arrival := [⟨0, "/orders"⟩, ⟨499, "all"⟩, ⟨500, "/orders"⟩, ⟨1099, "/orders"⟩]
    let c := ({ throttler := t₀ } : Chronicle).run xs
    new sampleSettings = .ok t₀ ∧
      c.admissions = [⟨"/orders", 0, 0, true⟩, ⟨"all", 499, 0, true⟩, ⟨"/orders", 500, 0, true⟩] ∧
      c.throttler.log = [⟨0, "/orders", 2⟩, ⟨500, "/orders", 2⟩] ∧
      (c.throttler.attempt 1100 "/orders").2 = .admitted ∧
      (c.throttler.attempt 1100 "/orders").2 =
        (({ t₀ with log := t₀.allCharges c.admissions } : Throttler).attempt 1100 "/orders").2 := by
  intro t₀ xs c
  have hnew : new sampleSettings = .ok t₀ := by rfl
  obtain ⟨-, hiff, -, -, htwin, -⟩ := admitted_iff_room_in_history sampleSettings t₀ xs 1100
    "/orders" { path := "/orders", limit := 4, window := 1000, weight := 2, linked := [⟨"all", 3⟩] }
    hnew (by decide) (by decide) (by decide)
  exact ⟨hnew, by decide, by decide, hiff.mpr (by decide), htwin⟩

end BookFeed.Throttler
