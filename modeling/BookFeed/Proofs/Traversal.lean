import BookFeed.Error
import Mathlib

/-!
# Lists read entry by entry

A reader that may fail goes through a list until it fails (`List.mapM`). It has results exactly if
each entry has one, and else the error of the first entry that has none.

* `mapM_eq_ok_iff`, `mapM_eq_error_iff`: both in terms of what the reader answers to each entry;
* `mapM_eq_ok_iff_forall₂`, `mapM_eq_error_iff_exists`: entry by entry, and with the entry that
  fails singled out.
-/

namespace BookFeed

instance decidableEqExcept {ε α : Type} [DecidableEq ε] [DecidableEq α] :
    DecidableEq (Except ε α)
  | .ok a, .ok b => decidable_of_iff (a = b) (by simp)
  | .error e, .error e' => decidable_of_iff (e = e') (by simp)
  | .ok _, .error _ => isFalse (by simp)
  | .error _, .ok _ => isFalse (by simp)

/-- The error of a computation that has failed. -/
def error? {ε α : Type} : Except ε α → Option ε
  | .error e => some e
  | .ok _ => none

@[simp] theorem error?_error {ε α : Type} (e : ε) : error? (.error e : Except ε α) = some e := rfl

@[simp] theorem error?_ok {ε α : Type} (a : α) : error? (.ok a : Except ε α) = none := rfl

theorem filterMap_error?_map_ok {ε α : Type} (as : List α) :
    ((as.map .ok : List (Except ε α)).filterMap error?) = [] := by
  simp [List.filterMap_eq_nil_iff]

variable {ε α β : Type} {f : α → Except ε β} {as : List α} {bs : List β} {b : β} {e : ε}
  {x : Except ε α} {g : α → Except ε β}

theorem bind_eq_error (h : x >>= g = .error e) :
    x = .error e ∨ ∃ a, x = .ok a ∧ g a = .error e := by
  cases x with
  | error e' => exact .inl (congrArg _ (Except.error.inj h))
  | ok a => exact .inr ⟨a, rfl, h⟩

theorem mapM_eq_ok_iff : as.mapM f = .ok bs ↔ as.map f = bs.map .ok := by
  induction as generalizing bs with
  | nil => cases bs <;> simp [pure, Except.pure]
  | cons a as ih =>
    rw [List.mapM_cons]
    cases hfirst : f a with
    | error e => cases bs <;> simp [hfirst, bind, Except.bind]
    | ok b =>
      cases hrest : as.mapM f <;> cases bs <;>
        simp [hfirst, hrest, ← ih, bind, Except.bind, pure, Except.pure]

theorem mapM_eq_error_iff :
    as.mapM f = .error e ↔ ((as.map f).filterMap error?).head? = some e := by
  induction as with
  | nil => simp [pure, Except.pure]
  | cons a as ih =>
    rw [List.mapM_cons]
    cases hfirst : f a with
    | error e => simp [hfirst, bind, Except.bind]
    | ok b =>
      rw [List.map_cons, hfirst, List.filterMap_cons_none (error?_ok b), ← ih]
      cases hrest : as.mapM f <;> simp [bind, Except.bind, pure, Except.pure]

/-- Each of the results comes from one of the entries. -/
theorem exists_of_mem_mapM (h : as.mapM f = .ok bs) (hb : b ∈ bs) : ∃ a ∈ as, f a = .ok b := by
  rw [mapM_eq_ok_iff] at h
  exact List.mem_map.mp (h ▸ List.mem_map_of_mem hb)

/-- Each of the entries has one of the results. -/
theorem exists_result_of_mem {a : α} (h : as.mapM f = .ok bs) (ha : a ∈ as) :
    ∃ b ∈ bs, f a = .ok b := by
  rw [mapM_eq_ok_iff] at h
  obtain ⟨b, hb, hfa⟩ := List.mem_map.mp (h ▸ List.mem_map_of_mem (f := f) ha)
  exact ⟨b, hb, hfa.symm⟩

/-- Each entry has its result, in its place. -/
theorem mapM_eq_ok_iff_forall₂ :
    as.mapM f = .ok bs ↔ List.Forall₂ (fun a b => f a = .ok b) as bs := by
  rw [mapM_eq_ok_iff, ← List.forall₂_eq_eq_eq, List.forall₂_map_left_iff,
    List.forall₂_map_right_iff]

/-- Entries that all stand for something can be told by what they stand for. -/
theorem forall₂_filterMap_left_iff {γ : Type} {r : β → γ → Prop} {f : α → Option β} {cs : List γ}
    (hf : ∀ a ∈ as, ∃ b, f a = some b) : List.Forall₂ r (as.filterMap f) cs ↔
      List.Forall₂ (fun a c => ∃ b, f a = some b ∧ r b c) as cs := by
  induction as generalizing cs with
  | nil => simp
  | cons a as ih =>
    obtain ⟨⟨b, hb⟩, hrest⟩ := List.forall_mem_cons.mp hf
    rw [List.filterMap_cons_some hb]
    cases cs with
    | nil => simp
    | cons c cs => simp [ih hrest, hb]

/-- The error is that of an entry before which each entry has a result. -/
theorem mapM_eq_error_iff_exists : as.mapM f = .error e ↔ ∃ before a after,
    as = before ++ a :: after ∧ (∀ a' ∈ before, ∃ b, f a' = .ok b) ∧ f a = .error e := by
  constructor
  · intro h
    induction as with
    | nil => cases h
    | cons a as ih =>
      rw [List.mapM_cons] at h
      rcases bind_eq_error h with hfirst | ⟨b, hfirst, h⟩
      · exact ⟨[], a, as, rfl, by simp, hfirst⟩
      · rcases bind_eq_error h with hrest | ⟨_, -, h⟩
        · obtain ⟨before, a', after, rfl, hbefore, hfails⟩ := ih hrest
          exact ⟨a :: before, a', after, rfl,
            List.forall_mem_cons.mpr ⟨⟨b, hfirst⟩, hbefore⟩, hfails⟩
        · cases h
  · rintro ⟨before, a, after, rfl, hbefore, hfails⟩
    induction before with
    | nil =>
      rw [List.nil_append, List.mapM_cons, hfails]
      rfl
    | cons a' before ih =>
      obtain ⟨⟨b, hfirst⟩, hrest⟩ := List.forall_mem_cons.mp hbefore
      rw [List.cons_append, List.mapM_cons, hfirst]
      change (before ++ a :: after).mapM f >>= _ = _
      rw [ih hrest]
      rfl

end BookFeed
