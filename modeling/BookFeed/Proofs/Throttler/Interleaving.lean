import BookFeed.Proofs.Throttler.Charges
import BookFeed.Throttler.Queue

/-!
# Calls that run side by side

`System` is a throttler with the calls that wait for it and the admissions it has given. A call
first looks whether the throttler is stopped, then takes the lock and makes an attempt; without room
it sleeps for the retry interval and starts over. These are separate events, so other calls, a stop
and time may come in between: each list of events is an interleaving. A call may also be dropped
while it waits, and who reads an occupancy makes the throttler forget charges.

* `Stepped`: what an event can do to the log, the clock and the admissions;
* **`step_stepped`**: `step` does one of these.
-/

namespace BookFeed.Throttler

/-- A call that has not returned. -/
structure Call where
  request : Request
  /-- it sleeps until then -/
  due : Nat
  /-- it has found the throttler running, and an attempt comes next -/
  cleared : Bool := false
deriving DecidableEq

/-- A throttler and those who call it. -/
structure System where
  throttler : Throttler
  now : Nat := 0
  calls : List Call := []
  /-- the oldest first -/
  admissions : List Admission := []

/-- What can happen next. Calls are named by their place among those that have not returned. -/
inductive Event where
  | pass (nanos : Nat)
  | call (path : String)
  /-- a call looks whether the throttler is stopped -/
  | look (i : Nat)
  /-- a call takes the lock and makes an attempt -/
  | attempt (i : Nat)
  | abandon (i : Nat)
  /-- someone reads an occupancy -/
  | occupancy
  | stop

/-- The attempt of a call that has found the throttler running. A stop since then does not reach
it. -/
def attemptCleared (t : Throttler) (now : Nat) (path : String) : Throttler × Attempt :=
  match ({ t with stopped := false } : Throttler).attempt now path with
  | (t', a) => ({ t' with stopped := t.stopped }, a)

namespace System

/-- Lets a call return, or sleep on. -/
def resolve (s : System) (i : Nat) (c : Call) : Throttler × Attempt → System
  | (throttler, a) =>
    match a.outcome? s.now c.request with
    | some (.ok admission) =>
      { s with
        throttler
        calls := s.calls.eraseIdx i
        admissions := s.admissions ++ [admission] }
    | some (.error _) => { s with throttler, calls := s.calls.eraseIdx i }
    | none =>
      { s with throttler, calls := s.calls.set i ⟨c.request, s.now + throttler.retry, false⟩ }

/-- A call on a path without a limit returns at once. What cannot happen changes nothing. -/
def step (s : System) : Event → System
  | .pass nanos => { s with now := s.now + nanos }
  | .call path =>
    match s.throttler.limit? path with
    | some _ => { s with calls := s.calls ++ [⟨⟨path, s.now⟩, s.now, false⟩] }
    | none =>
      if s.throttler.stopped then s
      else { s with admissions := s.admissions ++ [⟨path, s.now, 0, false⟩] }
  | .look i =>
    match s.calls[i]? with
    | none => s
    | some c =>
      if s.now < c.due then s
      else if s.throttler.stopped then { s with calls := s.calls.eraseIdx i }
      else { s with calls := s.calls.set i { c with cleared := true } }
  | .attempt i =>
    match s.calls[i]? with
    | none => s
    | some c =>
      if c.cleared then s.resolve i c (s.throttler.attemptCleared s.now c.request.path) else s
  | .abandon i => { s with calls := s.calls.eraseIdx i }
  | .occupancy => { s with throttler.log := s.throttler.live s.now }
  | .stop => { s with throttler := s.throttler.stop }

def run (s : System) (es : List Event) : System := es.foldl step s

end System

/-! ## What an event does -/

/-- `t` differs from `t₀` in its log and its stop mark at most. -/
structure Same (t₀ t : Throttler) : Prop where
  limits : t.limits = t₀.limits
  margin : t.margin = t₀.margin

variable {t₀ t t' : Throttler} {s s' : System} {now : Nat} {path : String}

theorem Same.refl (t : Throttler) : Same t t := ⟨rfl, rfl⟩

theorem Same.trans (h : Same t₀ t) (h' : Same t t') : Same t₀ t' :=
  ⟨h'.limits.trans h.limits, h'.margin.trans h.margin⟩

theorem Same.limit? (h : Same t₀ t) (path : String) : t.limit? path = t₀.limit? path := by
  unfold Throttler.limit?
  rw [h.limits]

theorem Same.takes (h : Same t₀ t) (limit : RateLimit) (path : String) :
    t.takes limit path = t₀.takes limit path := by
  unfold Throttler.takes
  rw [h.limit?]

theorem Same.demands (h : Same t₀ t) (l : RateLimit) : t.demands l = t₀.demands l := by
  unfold Throttler.demands
  simp only [h.limit?]

theorem Same.checksWhole (h : Same t₀ t) (hw : t₀.ChecksWhole) : t.ChecksWhole := by
  intro l hl limit hlimit
  rw [h.takes, h.demands]
  exact hw l (h.limits ▸ hl) limit (h.limits ▸ hlimit)

theorem Same.span (h : Same t₀ t) (limit : RateLimit) : t.span limit = t₀.span limit := by
  unfold Throttler.span
  rw [h.margin]

theorem Same.isLive (h : Same t₀ t) (now : Nat) : t.isLive now = t₀.isLive now := by
  funext c
  unfold Throttler.isLive
  rw [h.limit?]
  cases t₀.limit? c.path with
  | none => rfl
  | some l => simp only [h.span]

theorem Same.live (h : Same t₀ t) (hlog : t.log = t₀.log) (now : Nat) :
    t.live now = t₀.live now := by
  unfold Throttler.live
  rw [h.isLive, hlog]

/-- What an event can do to the log, the clock and the admissions. -/
inductive Stepped (s : System) : System → Prop where
  /-- time passes, or nothing that counts happens -/
  | quiet {t : Throttler} {now : Nat} {calls : List Call} (ht : Same s.throttler t)
      (hlog : t.log = s.throttler.log) (hnow : s.now ≤ now) :
      Stepped s { s with throttler := t, now, calls }
  /-- charges that are no longer live are forgotten -/
  | forgot {t : Throttler} {calls : List Call} (ht : Same s.throttler t)
      (hlog : t.log = s.throttler.live s.now) : Stepped s { s with throttler := t, calls }
  | unlimited {t : Throttler} {calls : List Call} {a : Admission} (ht : Same s.throttler t)
      (hl : s.throttler.limit? a.path = none) (ha : a.time = s.now)
      (hlog : t.log = s.throttler.log) :
      Stepped s { s with throttler := t, calls, admissions := s.admissions ++ [a] }
  | admitted {t : Throttler} {calls : List Call} {l : RateLimit} {a : Admission}
      (ht : Same s.throttler t) (hl : s.throttler.limit? a.path = some l) (ha : a.time = s.now)
      (hroom : ∀ d ∈ s.throttler.demands l,
        weightOn d.1.path (s.throttler.live s.now) + d.2.toNat ≤ d.1.limit.toNat)
      (hlog : t.log = s.throttler.live s.now ++ s.throttler.charges s.now l) :
      Stepped s { s with throttler := t, calls, admissions := s.admissions ++ [a] }

theorem Stepped.same (h : Stepped s s') : Same s.throttler s'.throttler := by
  cases h with
  | quiet ht | forgot ht | unlimited ht | admitted ht => exact ht

theorem Stepped.now_le (h : Stepped s s') : s.now ≤ s'.now := by
  cases h with
  | quiet _ _ hnow => exact hnow
  | forgot | unlimited | admitted => exact Nat.le_refl _

/-- What counts after an event is what counted before it, and the charges of an admission. -/
theorem Stepped.live_later (h : Stepped s s') {later : Nat} (hlater : s'.now ≤ later) :
    s'.throttler.live later = s.throttler.live later ∨
      ∃ path l, s.throttler.limit? path = some l ∧ s.now ≤ later ∧
        (∀ d ∈ s.throttler.demands l,
          weightOn d.1.path (s.throttler.live s.now) + d.2.toNat ≤ d.1.limit.toNat) ∧
        s'.throttler.live later = s.throttler.live later ++
          (s.throttler.charges s.now l).filter (s.throttler.isLive later) := by
  cases h with
  | quiet ht hlog => exact .inl (ht.live hlog later)
  | forgot ht hlog =>
    left
    unfold live
    rw [ht.isLive, hlog, filter_isLive hlater]
  | unlimited ht _ _ hlog => exact .inl (ht.live hlog later)
  | admitted ht hl _ hroom hlog =>
    refine .inr ⟨_, _, hl, hlater, hroom, ?_⟩
    unfold live
    rw [ht.isLive, hlog, List.filter_append, filter_isLive hlater]

/-- An attempt of a cleared call is an attempt with the stop mark put aside. -/
theorem attemptCleared_attempted (t : Throttler) (now : Nat) (path : String) :
    ∃ t', t.attemptCleared now path = ({ t' with stopped := t.stopped },
        (t.attemptCleared now path).2) ∧
      Attempted { t with stopped := false } now path t' (t.attemptCleared now path).2 :=
  ⟨_, rfl, attempt_attempted { t with stopped := false } now path⟩

theorem resolve_stepped (s : System) (i : Nat) (c : Call) :
    Stepped s (s.resolve i c (s.throttler.attemptCleared s.now c.request.path)) := by
  obtain ⟨t', heq, h⟩ := attemptCleared_attempted s.throttler s.now c.request.path
  rw [heq]
  generalize (s.throttler.attemptCleared s.now c.request.path).2 = a at h ⊢
  cases h with
  | cancelled hs => exact absurd hs Bool.false_ne_true
  | unlimited _ hl => exact .unlimited ⟨rfl, rfl⟩ hl rfl rfl
  | admitted _ hl hroom => exact .admitted ⟨rfl, rfl⟩ hl rfl hroom rfl
  | full => exact .forgot ⟨rfl, rfl⟩ rfl
  | overflow => exact .forgot ⟨rfl, rfl⟩ rfl

/-- **`step` does one of the things listed.** -/
theorem step_stepped (s : System) (e : Event) : Stepped s (s.step e) := by
  have hquiet : ∀ calls, Stepped s { s with calls } := fun calls =>
    .quiet (.refl _) rfl (Nat.le_refl _)
  cases e with
  | pass nanos => exact .quiet (.refl _) rfl (Nat.le_add_right _ _)
  | call path =>
    simp only [System.step]
    split
    · exact hquiet _
    · rename_i hl
      split
      · exact hquiet s.calls
      · exact .unlimited (.refl _) hl rfl rfl
  | look i =>
    simp only [System.step]
    split
    · exact hquiet s.calls
    · split
      · exact hquiet s.calls
      · split
        · exact hquiet _
        · exact hquiet _
  | attempt i =>
    simp only [System.step]
    split
    · exact hquiet s.calls
    · split
      · exact resolve_stepped s i _
      · exact hquiet s.calls
  | abandon i => exact hquiet _
  | occupancy => exact .forgot ⟨rfl, rfl⟩ rfl
  | stop => exact .quiet ⟨rfl, rfl⟩ rfl (Nat.le_refl _)

/-! ## Runs -/

theorem run_concat (s : System) (es : List Event) (e : Event) :
    s.run (es ++ [e]) = (s.run es).step e := List.foldl_concat ..

end BookFeed.Throttler
