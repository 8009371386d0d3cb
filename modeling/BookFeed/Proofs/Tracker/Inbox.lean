import BookFeed.Tracker.Inbox

/-!
# What goes into an inbox and what comes out

Nothing vanishes from an inbox. What a save drops (`Inbox.evicted`) is what is missing afterwards
(`evicted_append_saved_save`): at most the oldest of the saved messages, and only where as many wait
as may (`evicted_eq_singleton`).
-/

namespace BookFeed

namespace Inbox

/-- What is dropped when one more message is saved. -/
def evicted (capacity : Nat) (b : Inbox) : List Message :=
  if capacity ≤ b.saved.length then b.saved.take 1 else []

variable (capacity : Nat) (b : Inbox) (m : Message)

/-- **Whatever is saved stays, up to what is dropped.** -/
theorem evicted_append_saved_save :
    b.evicted capacity ++ (b.save capacity m).saved = b.saved ++ [m] := by
  unfold evicted save
  split
  · cases b.saved <;> rfl
  · rfl

variable {capacity b m}

/-- **Only the oldest message is dropped, and only where no more may wait.** -/
theorem evicted_eq_singleton (h : m ∈ b.evicted capacity) :
    b.evicted capacity = [m] ∧ b.saved.head? = some m ∧ capacity ≤ b.saved.length := by
  unfold evicted at h ⊢
  split at h
  · rename_i hfull
    rw [if_pos hfull]
    cases hsaved : b.saved with
    | nil => exact absurd h (by simp [hsaved])
    | cons oldest rest =>
      obtain rfl : m = oldest := by simpa [hsaved] using h
      exact ⟨rfl, rfl, hsaved ▸ hfull⟩
  · exact absurd h List.not_mem_nil

theorem mem_saved_save {m' : Message} (h : m' ∈ (b.save capacity m).saved) :
    m' ∈ b.saved ∨ m' = m := by
  have hmem : m' ∈ b.evicted capacity ++ (b.save capacity m).saved := List.mem_append_right _ h
  rw [evicted_append_saved_save] at hmem
  exact (List.mem_append.mp hmem).imp_right List.mem_singleton.mp

theorem mem_saved_of_take? {b' : Inbox} {m' : Message} (h : b.take? = some (m, b'))
    (hm : m' ∈ b'.saved) : m' ∈ b.saved := by
  obtain ⟨saved, live⟩ := b
  cases saved with
  | cons first rest =>
    obtain ⟨-, rfl⟩ : first = m ∧ (⟨rest, live⟩ : Inbox) = b' := by simpa [take?] using h
    exact List.mem_cons_of_mem first hm
  | nil =>
    cases live with
    | nil => exact absurd h (by simp [take?])
    | cons first rest =>
      obtain ⟨-, rfl⟩ : first = m ∧ (⟨[], rest⟩ : Inbox) = b' := by simpa [take?] using h
      exact absurd hm List.not_mem_nil

theorem size_save :
    (b.save capacity m).size + (b.evicted capacity).length = b.size + 1 := by
  have h := congrArg List.length (evicted_append_saved_save capacity b m)
  simp only [List.length_append, List.length_singleton] at h
  have hlive : (b.save capacity m).live = b.live := rfl
  unfold size
  rw [hlive]
  omega

theorem size_deliver : (b.deliver m).size = b.size + 1 := by
  simp only [deliver, size, List.length_append, List.length_singleton]
  omega

theorem take?_eq_none_iff : b.take? = none ↔ b.saved = [] ∧ b.live = [] := by
  obtain ⟨saved, live⟩ := b
  cases saved <;> cases live <;> simp [take?]

end Inbox

end BookFeed
