import BookFeed.Proofs.Decimal.Exact
import Mathlib.Data.List.Infix

/-!
# Totals

`Decimal.sum?` adds a list up from the left, and every sum on the way is rounded. `SumsFit` says
that none of them has to be: each is a decimal. Then there is a total, and it is the exact one
(`sum?_of_sumsFit`). A total of positive numbers is positive in any case, however it is rounded
(`isPositive_sum?`).

`roundedTotal` is the total with all its roundings. There is one exactly if every sum on the way is
in range (`gives_sum?`). Where the numbers are positive, that is so if the total is
(`sumsInRange_iff`).
-/

namespace BookFeed.Decimal

variable {acc c d : Decimal} {ds : List Decimal}

/-- The exact total of a list. -/
def total (ds : List Decimal) : ℚ := (ds.map value).sum

@[simp] theorem total_nil : total [] = 0 := rfl

@[simp] theorem total_cons (d : Decimal) (ds : List Decimal) :
    total (d :: ds) = d.value + total ds := rfl

/-! ## Signs -/

theorem isPositive_foldlM_add? : ∀ {ds : List Decimal} {acc : Decimal},
    acc.isPositive = true → (∀ d ∈ ds, d.isPositive = true) → ds.foldlM add? acc = some c →
    c.isPositive = true
  | [], _, hacc, _, h => Option.some.inj h ▸ hacc
  | d :: ds, acc, hacc, hpos, h => by
    rw [List.foldlM_cons] at h
    obtain ⟨sum, hsum, h⟩ := Option.bind_eq_some_iff.mp h
    have hfirst := hpos d List.mem_cons_self
    exact isPositive_foldlM_add? (isPositive_add? (isNonneg_of_isPositive hacc) hfirst hsum)
      (fun e he => hpos e (List.mem_cons_of_mem d he)) h

/-- **A total of positive numbers is positive**, and without any numbers it is zero. -/
theorem isPositive_sum? (hpos : ∀ d ∈ ds, d.isPositive = true) (h : sum? ds = some c) :
    if ds = [] then c = zero else c.isPositive = true := by
  cases ds with
  | nil => exact (Option.some.inj h).symm
  | cons d ds =>
    unfold sum? at h
    rw [List.foldlM_cons] at h
    obtain ⟨sum, hsum, h⟩ := Option.bind_eq_some_iff.mp h
    exact isPositive_foldlM_add? (isPositive_add? (by decide) (hpos d List.mem_cons_self) hsum)
      (fun e he => hpos e (List.mem_cons_of_mem d he)) h

/-! ## Rounded totals -/

/-- The total of a list, added up from the left, where every sum on the way is rounded. -/
def roundedTotal (ds : List Decimal) : ℚ := ds.foldl (fun sum d => rounded (sum + d.value)) 0

/-- Every sum on the way is in range. -/
def SumsInRange (ds : List Decimal) : Prop := ∀ part, part <+: ds → InRange (roundedTotal part)

instance (ds : List Decimal) : Decidable (SumsInRange ds) :=
  decidable_of_iff (∀ part ∈ ds.inits, InRange (roundedTotal part)) (by simp [SumsInRange])

theorem SumsInRange.take (h : SumsInRange ds) (n : Nat) : SumsInRange (ds.take n) :=
  fun part hpart => h part (hpart.trans (List.take_prefix n ds))

theorem roundedTotal_concat (ds : List Decimal) (d : Decimal) :
    roundedTotal (ds ++ [d]) = rounded (roundedTotal ds + d.value) := List.foldl_concat ..

theorem sum?_concat (ds : List Decimal) (d : Decimal) :
    sum? (ds ++ [d]) = (sum? ds).bind (·.add? d) := by
  unfold sum?
  rw [List.foldlM_append]
  simp

/-- **A total is rounded at every sum on the way.** -/
theorem sum?_rounded (h : sum? ds = some c) : c.value = roundedTotal ds := by
  induction ds using List.reverseRecOn generalizing c with
  | nil => exact Option.some.inj h ▸ value_zero
  | append_singleton ds d ih =>
    rw [sum?_concat] at h
    obtain ⟨sum, hsum, hadd⟩ := Option.bind_eq_some_iff.mp h
    rw [roundedTotal_concat, add?_rounded hadd, ih hsum]

theorem sumsInRange_nil : SumsInRange [] := fun part hpart => by
  rw [List.prefix_nil.mp hpart, show roundedTotal [] = zero.value from value_zero.symm]
  exact inRange_value zero

theorem sumsInRange_concat : SumsInRange (ds ++ [d]) ↔
    SumsInRange ds ∧ InRange (roundedTotal ds + d.value) := by
  rw [← inRange_rounded_iff, ← roundedTotal_concat]
  simp only [SumsInRange, List.prefix_concat_iff, forall_eq_or_imp]
  exact and_comm

theorem isSome_sum?_iff : (sum? ds).isSome = true ↔ SumsInRange ds := by
  induction ds using List.reverseRecOn with
  | nil => exact iff_of_true rfl sumsInRange_nil
  | append_singleton ds d ih =>
    rw [sumsInRange_concat, ← ih, sum?_concat]
    cases hsum : sum? ds with
    | none => simp
    | some sum =>
      rw [Option.bind_some, isSome_add?_iff, sum?_rounded hsum]
      simp

/-- **There is a total exactly if every sum on the way is in range.** -/
theorem gives_sum? (ds : List Decimal) : Gives (sum? ds) (SumsInRange ds) (roundedTotal ds) :=
  ⟨isSome_sum?_iff, fun _ => sum?_rounded⟩

theorem roundedTotal_nonneg (hpos : ∀ d ∈ ds, d.isPositive = true) : 0 ≤ roundedTotal ds := by
  induction ds using List.reverseRecOn with
  | nil => exact le_refl _
  | append_singleton ds d ih =>
    obtain ⟨hds, hd⟩ := List.forall_mem_append.mp hpos
    rw [roundedTotal_concat]
    have hd' := isPositive_iff.mp (hd d (List.mem_singleton_self d))
    exact rounded_nonneg (add_nonneg (ih hds) hd'.le)

/-- **Totals of positive numbers grow**, so if the last is in range, they all are. -/
theorem sumsInRange_iff (hpos : ∀ d ∈ ds, d.isPositive = true) :
    SumsInRange ds ↔ InRange (roundedTotal ds) := by
  refine ⟨fun h => h ds (List.prefix_refl ds), ?_⟩
  induction ds using List.reverseRecOn with
  | nil => exact fun _ => sumsInRange_nil
  | append_singleton ds d ih =>
    intro h
    obtain ⟨hds, hd⟩ := List.forall_mem_append.mp hpos
    have hd' := isPositive_iff.mp (hd d (List.mem_singleton_self d))
    have hnonneg := roundedTotal_nonneg hds
    rw [roundedTotal_concat, inRange_rounded_iff] at h
    refine sumsInRange_concat.mpr ⟨ih hds (h.mono ?_), h⟩
    rw [abs_of_nonneg hnonneg, abs_of_nonneg (add_nonneg hnonneg hd'.le)]
    exact le_add_of_nonneg_right hd'.le

/-! ## Exact totals -/

/-- Every sum on the way is a decimal. -/
def SumsFit (ds : List Decimal) : Prop := ∀ part, part <+: ds → Representable (total part)

instance (ds : List Decimal) : Decidable (SumsFit ds) :=
  decidable_of_iff (∀ part ∈ ds.inits, Representable (total part)) (by simp [SumsFit])

theorem SumsFit.take (h : SumsFit ds) (n : Nat) : SumsFit (ds.take n) :=
  fun part hpart => h part (hpart.trans (List.take_prefix n ds))

theorem SumsFit.total (h : SumsFit ds) : Representable (total ds) := h ds (List.prefix_refl ds)

/-- What need not be rounded is not. -/
theorem SumsFit.roundedTotal_eq (h : SumsFit ds) : roundedTotal ds = Decimal.total ds := by
  induction ds using List.reverseRecOn with
  | nil => rfl
  | append_singleton ds d ih =>
    have htotal : Decimal.total (ds ++ [d]) = Decimal.total ds + d.value := by
      simp [Decimal.total]
    have hds : SumsFit ds := fun part hpart => h part (hpart.trans (List.prefix_append ds [d]))
    rw [roundedTotal_concat, ih hds, ← htotal, rounded_of_representable h.total]

theorem SumsFit.inRange (h : SumsFit ds) : SumsInRange ds := fun part hpart => by
  have hfit : SumsFit part := fun part' hpart' => h part' (hpart'.trans hpart)
  rw [hfit.roundedTotal_eq]
  exact (h part hpart).inRange

/-- **A list whose sums on the way are decimals has an exact total.** -/
theorem sum?_of_sumsFit (h : SumsFit ds) : ∃ c, sum? ds = some c ∧ c.value = total ds := by
  obtain ⟨c, hc⟩ := Option.isSome_iff_exists.mp (isSome_sum?_iff.mpr h.inRange)
  exact ⟨c, hc, (sum?_rounded hc).trans h.roundedTotal_eq⟩

end BookFeed.Decimal
