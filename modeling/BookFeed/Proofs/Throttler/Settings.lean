import BookFeed.Throttler.Basic
import Mathlib.Data.List.Nodup

/-!
# What settings that are accepted promise

`Throttler.new` puts the limits together one by one and then looks for faults. `Configured` is what
all limits of an accepted throttler satisfy: each has a path of its own and can admit a request, and
what it is linked to exists and can hold the linked weight. The share changes how high a limit is
and nothing else, so links are as the settings have them.

* **`new_configured`**: the limits of a new throttler are `Configured`.
* `new_from`: each is a limit of the settings, at another height perhaps;
* `new_height`: each limit of the settings is among them, at the height that its share is;
* `new_ok`: the margin is that of the settings, nothing is charged, and it is not stopped.
-/

namespace BookFeed.Throttler

/-- What the limits of a throttler satisfy. -/
structure Configured (limits : List RateLimit) : Prop where
  distinct : (limits.map (·.path)).Nodup
  limit_pos : ∀ l ∈ limits, l.limit ≠ 0
  window_pos : ∀ l ∈ limits, l.window ≠ 0
  weight_pos : ∀ l ∈ limits, l.weight ≠ 0
  weight_le : ∀ l ∈ limits, l.weight ≤ l.limit
  linked : ∀ l ∈ limits, ∀ k ∈ l.linked,
    ∃ pool, limits.find? (·.path == k.path) = some pool ∧ k.weight ≤ pool.limit

variable {s : Settings} {t : Throttler} {limits acc : List RateLimit} {l pool : RateLimit}
  {share : Option Decimal}

/-! ## Putting limits together -/

/-- The height at which a limit is to be used. -/
def height (share : Option Decimal) (l : RateLimit) : Except Halt UInt32 :=
  match share with
  | some pct => shareOf l.limit pct
  | none => .ok l.limit

theorem addLimit_eq : addLimit share acc l = (height share l).bind fun limit =>
    if acc.any (·.path == l.path) then .error (.error (.invalidRateLimit l.path "duplicate limit"))
    else .ok (acc ++ [{ l with limit }]) := by
  unfold addLimit height
  cases share <;> rfl

/-- A limit goes in at the end, at some height, if its path is new. -/
theorem addLimit_ok (h : addLimit share acc l = .ok limits) :
    (∀ a ∈ acc, a.path ≠ l.path) ∧
      ∃ limit, height share l = .ok limit ∧ limits = acc ++ [{ l with limit }] := by
  rw [addLimit_eq] at h
  cases hs : height share l with
  | error e =>
    rw [hs] at h
    exact absurd h (by simp [Except.bind])
  | ok limit =>
    rw [hs] at h
    simp only [Except.bind] at h
    split at h
    · exact absurd h (by simp)
    · rename_i hnew
      rw [Bool.not_eq_true, List.any_eq_false] at hnew
      refine ⟨fun a ha => ?_, limit, rfl, (Except.ok.inj h).symm⟩
      simpa using hnew a ha

/-- What holds of the limits so far, and is kept by adding one, holds of all. -/
theorem addLimits_keeps {P : List RateLimit → Prop} : ∀ {ls acc : List RateLimit},
    (∀ l ∈ ls, ∀ acc limits, P acc → addLimit share acc l = .ok limits → P limits) →
    P acc → ls.foldlM (addLimit share) acc = .ok limits → P limits
  | [], acc, _, hp, h => by
    rw [List.foldlM_nil] at h
    exact Except.ok.inj h ▸ hp
  | l :: ls, acc, hstep, hp, h => by
    rw [List.foldlM_cons] at h
    cases ha : addLimit share acc l with
    | error e =>
      rw [ha] at h
      exact absurd h (by simp [bind, Except.bind])
    | ok acc' =>
      rw [ha] at h
      exact addLimits_keeps (fun l hl => hstep l (List.mem_cons_of_mem _ hl))
        (hstep l List.mem_cons_self acc acc' hp ha) h

theorem addLimits_distinct {ls : List RateLimit}
    (h : ls.foldlM (addLimit share) [] = .ok limits) : (limits.map (·.path)).Nodup := by
  refine addLimits_keeps (P := fun limits => (limits.map (·.path)).Nodup)
    (fun l _ acc limits hp ha => ?_) ?_ h
  · obtain ⟨hnew, limit, -, rfl⟩ := addLimit_ok ha
    rw [List.map_append, List.nodup_append]
    refine ⟨hp, List.nodup_singleton _, ?_⟩
    intro p hp p' hp'
    obtain ⟨a, ha, rfl⟩ := List.mem_map.mp hp
    obtain rfl := List.mem_singleton.mp hp'
    exact hnew a ha
  · exact List.nodup_nil

/-- A limit is one of the settings, at some height. -/
theorem addLimits_from {ls : List RateLimit} (h : ls.foldlM (addLimit share) [] = .ok limits) :
    ∀ l ∈ limits, ∃ l' ∈ ls, ∃ limit, l = { l' with limit } := by
  refine addLimits_keeps
    (P := fun limits => ∀ l ∈ limits, ∃ l' ∈ ls, ∃ limit, l = { l' with limit })
    (fun l hl acc limits hp ha => ?_) (fun l hl => absurd hl List.not_mem_nil) h
  obtain ⟨-, limit, -, rfl⟩ := addLimit_ok ha
  intro a hmem
  rcases List.mem_append.mp hmem with hmem | hmem
  · exact hp a hmem
  · exact ⟨l, hl, limit, List.mem_singleton.mp hmem⟩

/-- Every limit of the settings is there, at its height. -/
theorem addLimits_height : ∀ {ls acc : List RateLimit},
    ls.foldlM (addLimit share) acc = .ok limits →
      acc ⊆ limits ∧ ∀ l ∈ ls, ∃ limit, height share l = .ok limit ∧ { l with limit } ∈ limits
  | [], acc, h => by
    rw [List.foldlM_nil] at h
    obtain rfl := Except.ok.inj h
    exact ⟨List.Subset.refl acc, fun l hl => absurd hl List.not_mem_nil⟩
  | l :: ls, acc, h => by
    rw [List.foldlM_cons] at h
    obtain ⟨acc', ha, h⟩ := bind_eq_ok h
    obtain ⟨-, limit, hheight, rfl⟩ := addLimit_ok ha
    obtain ⟨hsub, hls⟩ := addLimits_height h
    exact ⟨fun a ha => hsub (List.mem_append_left _ ha), List.forall_mem_cons.mpr
      ⟨⟨limit, hheight, hsub (List.mem_append_right _ List.mem_cons_self)⟩, hls⟩⟩

/-! ## Looking for faults -/

theorem linkFault?_eq_none {k : LinkedLimit} (h : linkFault? limits k = none) :
    ∃ pool, limits.find? (·.path == k.path) = some pool ∧ k.weight ≤ pool.limit := by
  unfold linkFault? at h
  split at h
  · exact absurd h (by simp)
  · rename_i pool hpool
    split at h
    · rename_i hle
      exact ⟨pool, hpool, hle⟩
    · exact absurd h (by simp)

theorem fault?_eq_none (h : fault? limits l = none) :
    l.limit ≠ 0 ∧ l.window ≠ 0 ∧ (l.weight ≠ 0 ∧ l.weight ≤ l.limit) ∧
      ∀ k ∈ l.linked, linkFault? limits k = none := by
  unfold fault? at h
  split at h
  · exact absurd h (by simp)
  · rename_i hlimit
    split at h
    · exact absurd h (by simp)
    · rename_i hwindow
      split at h
      · exact absurd h (by simp)
      · rename_i hweight
        rw [not_or, UInt32.not_lt] at hweight
        exact ⟨hlimit, hwindow, hweight, List.findSome?_eq_none_iff.mp h⟩

theorem validate_ok (h : validate limits = .ok ()) : ∀ l ∈ limits, fault? limits l = none := by
  unfold validate at h
  split at h
  · exact absurd h (by simp)
  · rename_i hnone
    intro l hl
    exact Option.map_eq_none_iff.mp (List.findSome?_eq_none_iff.mp hnone l hl)

/-! ## New throttlers -/

theorem new_ok (h : new s = .ok t) :
    s.limits.foldlM (addLimit s.share) [] = .ok t.limits ∧ validate t.limits = .ok () ∧
      t.margin = s.margin ∧ t.retry = s.retry ∧ t.log = [] ∧ t.stopped = false := by
  unfold new at h
  split at h
  · cases hl : s.limits.foldlM (addLimit s.share) [] with
    | error e =>
      rw [hl] at h
      exact absurd h (by simp [bind, Except.bind])
    | ok limits =>
      rw [hl] at h
      cases hv : validate limits with
      | error e =>
        simp only [bind, Except.bind, hv] at h
        exact absurd h (by simp)
      | ok u =>
        simp only [bind, Except.bind, hv] at h
        obtain rfl := Except.ok.inj h
        exact ⟨rfl, hv, rfl, rfl, rfl, rfl⟩
  · exact absurd h (by simp)

/-- **A new throttler can work with its limits.** -/
theorem new_configured (h : new s = .ok t) : Configured t.limits := by
  obtain ⟨hlimits, hvalid, -⟩ := new_ok h
  have hfault := fun l hl => fault?_eq_none (validate_ok hvalid l hl)
  exact ⟨addLimits_distinct hlimits, fun l hl => (hfault l hl).1, fun l hl => (hfault l hl).2.1,
    fun l hl => (hfault l hl).2.2.1.1, fun l hl => (hfault l hl).2.2.1.2,
    fun l hl k hk => linkFault?_eq_none ((hfault l hl).2.2.2 k hk)⟩

theorem new_from (h : new s = .ok t) : ∀ l ∈ t.limits, ∃ l' ∈ s.limits, ∃ limit,
    l = { l' with limit } :=
  addLimits_from (new_ok h).1

theorem new_height (h : new s = .ok t) {l : RateLimit} (hl : l ∈ s.limits) :
    ∃ limit, height s.share l = .ok limit ∧ { l with limit } ∈ t.limits :=
  (addLimits_height (new_ok h).1).2 l hl

/-! ## Finding a limit -/

/-- Of limits with distinct paths, each is found by its path. -/
theorem Configured.find (hc : Configured limits) (hl : l ∈ limits) :
    limits.find? (·.path == l.path) = some l := by
  cases hf : limits.find? (·.path == l.path) with
  | none => exact absurd (List.find?_eq_none.mp hf l hl) (by simp)
  | some l' =>
    have hp : l'.path = l.path := by simpa using List.find?_some hf
    rw [List.inj_on_of_nodup_map hc.distinct (List.mem_of_find?_eq_some hf) hl hp]

end BookFeed.Throttler
