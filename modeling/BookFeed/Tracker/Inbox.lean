import BookFeed.Message.Basic

/-!
# Inboxes

What a pair has received and not processed yet: messages that were saved for it, and live messages
from the router. Saved messages come first. Only so many may wait; to save one more drops the oldest
of them.
-/

namespace BookFeed

/-- The messages that wait for a pair. -/
structure Inbox where
  /-- oldest first -/
  saved : List Message := []
  /-- oldest first -/
  live : List Message := []

namespace Inbox

/-- Saves a message. -/
def save (capacity : Nat) (b : Inbox) (m : Message) : Inbox :=
  { b with saved := (if capacity ≤ b.saved.length then b.saved.tail else b.saved) ++ [m] }

/-- Receives a live message. -/
def deliver (b : Inbox) (m : Message) : Inbox := { b with live := b.live ++ [m] }

/-- Takes the message that comes next. -/
def take? (b : Inbox) : Option (Message × Inbox) :=
  match b.saved, b.live with
  | m :: saved, live => some (m, ⟨saved, live⟩)
  | [], m :: live => some (m, ⟨[], live⟩)
  | [], [] => none

def size (b : Inbox) : Nat := b.saved.length + b.live.length

theorem size_take? {b c : Inbox} {m : Message} (h : b.take? = some (m, c)) :
    b.size = c.size + 1 := by
  unfold take? at h
  split at h <;> simp only [Option.some.injEq, Prod.mk.injEq, reduceCtorEq] at h <;>
    obtain ⟨-, rfl⟩ := h <;> grind [size]

/-- As long as one saved message may wait, no more wait than may. -/
theorem length_saved_save {capacity : Nat} {b : Inbox} (m : Message) (h : 0 < capacity)
    (hb : b.saved.length ≤ capacity) : (b.save capacity m).saved.length ≤ capacity := by
  unfold save
  split <;> simp <;> omega

end Inbox

end BookFeed
