import BookFeed.Proofs.Sorted
import BookFeed.Registry

/-!
# Every registered pair has a book of its own

Handles are numbers of books, so two pairs could share a book, or a handle could point nowhere.
`Registry.Sound` excludes both. It holds once all pairs have been taken away, and registering a pair
and writing a book keep it. With it, what is done for one pair leaves the books of the others alone
(`book?_register_of_ne`, `book?_write_of_ne`).
-/

namespace BookFeed

namespace Registry

/-- Handles point to books, and those of different pairs to different books. -/
structure Sound (r : Registry) : Prop where
  known : ∀ {p h}, r.view? p = some h → h.index < r.books.length
  distinct : ∀ {p q h}, r.view? p = some h → r.view? q = some h → p = q

variable {r : Registry} {p q : String} {h : Handle} {f : Book → Book}

theorem view?_clear : r.clear.view? p = none := rfl

theorem sound_clear (r : Registry) : r.clear.Sound where
  known hp := absurd hp (by simp [view?_clear])
  distinct hp := absurd hp (by simp [view?_clear])

/-! ## Writing -/

theorem view?_write : (r.write h f).view? p = r.view? p := rfl

theorem Sound.write (hr : r.Sound) : (r.write h f).Sound where
  known hp := by
    have := hr.known hp
    rwa [Registry.write, List.length_modify]
  distinct hp hq := hr.distinct hp hq

theorem book?_write_self (hp : r.view? p = some h) :
    (r.write h f).book? p = (r.book? p).map f := by
  rw [book?, book?, view?_write, hp]
  exact List.getElem?_modify_eq f h.index r.books

theorem book?_write_of_ne (hr : r.Sound) (hp : r.view? p = some h) (hne : q ≠ p) :
    (r.write h f).book? q = r.book? q := by
  rw [book?, book?, view?_write]
  cases hq : r.view? q with
  | none => rfl
  | some h' =>
    have hidx : h.index ≠ h'.index := fun heq => by
      obtain rfl : h = h' := congrArg Handle.mk heq
      exact hne (hr.distinct hq hp)
    exact List.getElem?_modify_ne f r.books hidx

/-! ## Registering -/

theorem register_of_view?_eq_none (hp : r.view? p = none) :
    r.register p = (⟨Sorted.insert compare p ⟨r.books.length⟩ r.entries, r.books ++ [.empty p]⟩,
      ⟨r.books.length⟩) := by
  rw [register, hp]

theorem view?_register_self (hp : r.view? p = none) :
    (r.register p).1.view? p = some (r.register p).2 := by
  rw [register_of_view?_eq_none hp]
  exact Sorted.get?_insert_self p _ r.entries

theorem view?_register_of_ne (hp : r.view? p = none) (hne : q ≠ p) :
    (r.register p).1.view? q = r.view? q := by
  rw [register_of_view?_eq_none hp]
  exact Sorted.get?_insert_of_ne hne _ r.entries

/-- A new handle is none of those there are. -/
theorem Sound.register (hr : r.Sound) (hp : r.view? p = none) : (r.register p).1.Sound := by
  have hfresh : ∀ {q h}, r.view? q = some h → h ≠ (r.register p).2 := by
    intro q h hq heq
    have hlt := hr.known hq
    rw [heq, register_of_view?_eq_none hp] at hlt
    exact Nat.lt_irrefl _ hlt
  have hlen : (r.register p).1.books.length = r.books.length + 1 := by
    rw [register_of_view?_eq_none hp, List.length_append, List.length_singleton]
  have hcases : ∀ {q h}, (r.register p).1.view? q = some h →
      q = p ∧ h = (r.register p).2 ∨ q ≠ p ∧ r.view? q = some h := by
    intro q h hq
    by_cases hqp : q = p
    · rw [hqp, view?_register_self hp] at hq
      exact .inl ⟨hqp, (Option.some.inj hq).symm⟩
    · rw [view?_register_of_ne hp hqp] at hq
      exact .inr ⟨hqp, hq⟩
  refine ⟨fun {q h} hq => ?_, fun {q q' h} hq hq' => ?_⟩
  · rw [hlen]
    rcases hcases hq with ⟨-, rfl⟩ | ⟨-, hold⟩
    · rw [register_of_view?_eq_none hp]
      exact Nat.lt_succ_self _
    · exact Nat.lt_succ_of_lt (hr.known hold)
  · rcases hcases hq with ⟨rfl, rfl⟩ | ⟨-, hold⟩
    · rcases hcases hq' with ⟨rfl, -⟩ | ⟨-, hold'⟩
      · rfl
      · exact absurd rfl (hfresh hold')
    · rcases hcases hq' with ⟨rfl, rfl⟩ | ⟨-, hold'⟩
      · exact absurd rfl (hfresh hold)
      · exact hr.distinct hold hold'

theorem read?_register (hp : r.view? p = none) :
    (r.register p).1.read? (r.register p).2 = some (.empty p) := by
  rw [register_of_view?_eq_none hp]
  exact List.getElem?_concat_length

theorem book?_register_self (hp : r.view? p = none) :
    (r.register p).1.book? p = some (.empty p) := by
  rw [book?, view?_register_self hp]
  exact read?_register hp

theorem book?_register_of_ne (hr : r.Sound) (hp : r.view? p = none) (hne : q ≠ p) :
    (r.register p).1.book? q = r.book? q := by
  rw [book?, book?, view?_register_of_ne hp hne]
  cases hq : r.view? q with
  | none => rfl
  | some h =>
    rw [register_of_view?_eq_none hp]
    exact List.getElem?_append_left (hr.known hq)

/-! ## Removing -/

theorem view?_remove (hr : Sorted.Strict compare r.entries) :
    (r.remove p).view? q = if compare q p = .eq then none else r.view? q :=
  Sorted.get?_erase hr p q

/-- What is found after a removal was found before. -/
theorem view?_of_remove (hr : Sorted.Strict compare r.entries)
    (hq : (r.remove p).view? q = some h) : q ≠ p ∧ r.view? q = some h := by
  rw [view?_remove hr] at hq
  split at hq
  · exact absurd hq (by simp)
  · rename_i hne
    exact ⟨fun heq => hne (heq ▸ Std.ReflCmp.compare_self), hq⟩

theorem Sound.remove (hr : r.Sound) (hs : Sorted.Strict compare r.entries) :
    (r.remove p).Sound where
  known hp := hr.known (view?_of_remove hs hp).2
  distinct hp hq := hr.distinct (view?_of_remove hs hp).2 (view?_of_remove hs hq).2

end Registry

end BookFeed
