import BookFeed.Message.Basic
import Mathlib.Data.Int.Order.Basic
import Mathlib.Order.Compare
import Mathlib.Order.Nat

/-!
# Messages stand in a line

`Message.place` numbers the places of the message order: time counts first, and each time has one
place for each kind of message. `before`, `notAfter` and `sameOrder` compare places
(`before_iff`, `notAfter_iff`, `sameOrder_iff`), so what there is to know about the order is known
from the integers.

A list is `Ordered` when its places do not fall. The messages of such a list that do not order
after a given one come first (`takeWhile_notAfter`, `dropWhile_notAfter`), which is where a window
is cut for a snapshot and where a late diff goes in.
-/

namespace BookFeed

/-- The total order of doubles tells all bit patterns apart. -/
theorem Binary64.totalKey_inj {x y : Binary64} (h : x.totalKey = y.totalKey) : x = y := by
  obtain ⟨a⟩ := x
  obtain ⟨b⟩ := y
  have ha := a.toNat_lt
  have hb := b.toNat_lt
  simp only [totalKey, isNegative, magnitude, signBit, decide_eq_true_eq] at h
  have : a.toNat = b.toNat := by
    split at h <;> split at h <;> omega
  rw [UInt64.toNat_inj.mp this]

theorem MessageKind.rank_inj {a b : MessageKind} (h : a.rank = b.rank) : a = b := by
  cases a <;> cases b <;> first | rfl | exact absurd h (by decide)

theorem MessageKind.rank_lt (k : MessageKind) : k.rank < 3 := by
  cases k <;> decide

namespace Message

/-- The place of a message in the order. -/
def place (m : Message) : Int := 3 * m.timestamp.totalKey + m.kind.rank

variable {a b m : Message}

theorem compare_eq_compare_place (a b : Message) : a.compare b = compare a.place b.place := by
  have ha := a.kind.rank_lt
  have hb := b.kind.rank_lt
  unfold Message.compare
  rcases lt_trichotomy a.timestamp.totalKey b.timestamp.totalKey with h | h | h
  · have hp : a.place < b.place := by unfold place; omega
    rw [compare_lt_iff_lt.mpr h, compare_lt_iff_lt.mpr hp]
    rfl
  · rw [compare_eq_iff_eq.mpr h]
    show compare a.kind.rank b.kind.rank = _
    rcases lt_trichotomy a.kind.rank b.kind.rank with hr | hr | hr
    · have hp : a.place < b.place := by unfold place; omega
      rw [compare_lt_iff_lt.mpr hr, compare_lt_iff_lt.mpr hp]
    · have hp : a.place = b.place := by unfold place; omega
      rw [compare_eq_iff_eq.mpr hr, compare_eq_iff_eq.mpr hp]
    · have hp : b.place < a.place := by unfold place; omega
      rw [compare_gt_iff_gt.mpr hr, compare_gt_iff_gt.mpr hp]
  · have hp : b.place < a.place := by unfold place; omega
    rw [compare_gt_iff_gt.mpr h, compare_gt_iff_gt.mpr hp]
    rfl

theorem before_iff : a.before b = true ↔ a.place < b.place := by
  rw [before, compare_eq_compare_place, beq_iff_eq, compare_lt_iff_lt]

theorem notAfter_iff : a.notAfter b = true ↔ a.place ≤ b.place := by
  rw [notAfter, compare_eq_compare_place, bne_iff_ne, ne_eq, compare_gt_iff_gt, not_lt]

theorem sameOrder_iff : a.sameOrder b = true ↔ a.place = b.place := by
  rw [sameOrder, compare_eq_compare_place, beq_iff_eq, compare_eq_iff_eq]

theorem not_notAfter : (!a.notAfter b) = b.before a := by
  rw [Bool.eq_iff_iff, Bool.not_eq_true', ← Bool.not_eq_true, notAfter_iff, before_iff, not_le]

/-- A place tells the time and the kind of the messages that stand there. -/
theorem place_eq_iff : a.place = b.place ↔ a.timestamp = b.timestamp ∧ a.kind = b.kind := by
  have ha := a.kind.rank_lt
  have hb := b.kind.rank_lt
  constructor
  · intro h
    unfold place at h
    exact ⟨Binary64.totalKey_inj (by omega), MessageKind.rank_inj (by omega)⟩
  · rintro ⟨ht, hk⟩
    rw [place, place, ht, hk]

/-- Messages of different kinds never stand at one place. -/
theorem before_of_notAfter (h : a.notAfter b = true) (hk : a.kind ≠ b.kind) :
    a.before b = true := by
  have hle := notAfter_iff.mp h
  have hne : a.place ≠ b.place := fun e => hk (place_eq_iff.mp e).2
  exact before_iff.mpr (lt_of_le_of_ne hle hne)

/-! ## Ordered lists -/

section Prefix

variable {α : Type} {p : α → Bool} {l : List α}

/-- A predicate that holds of a prefix of a list at most picks out that prefix. -/
theorem takeWhile_eq_filter (h : l.Pairwise fun a b => p b = true → p a = true) :
    l.takeWhile p = l.filter p := by
  induction l with
  | nil => rfl
  | cons a l ih =>
    obtain ⟨ha, hl⟩ := List.pairwise_cons.mp h
    by_cases hp : p a = true
    · rw [List.takeWhile_cons_of_pos hp, List.filter_cons_of_pos hp, ih hl]
    · rw [List.takeWhile_cons_of_neg hp, List.filter_cons_of_neg hp, eq_comm,
        List.filter_eq_nil_iff]
      exact fun b hb hpb => hp (ha b hb hpb)

theorem dropWhile_eq_filter (h : l.Pairwise fun a b => p b = true → p a = true) :
    l.dropWhile p = l.filter fun a => !p a := by
  induction l with
  | nil => rfl
  | cons a l ih =>
    obtain ⟨ha, hl⟩ := List.pairwise_cons.mp h
    by_cases hp : p a = true
    · rw [List.dropWhile_cons_of_pos hp, List.filter_cons_of_neg (by simp [hp]), ih hl]
    · rw [List.dropWhile_cons_of_neg hp, eq_comm, List.filter_eq_self]
      intro b hb
      rw [Bool.not_eq_true', ← Bool.not_eq_true]
      rcases List.mem_cons.mp hb with rfl | hb
      · exact hp
      · exact fun hpb => hp (ha b hb hpb)

end Prefix

/-- The messages stand in the list as they do in the order. -/
def Ordered (ms : List Message) : Prop := ms.Pairwise fun a b => a.place ≤ b.place

variable {ms : List Message}

theorem notAfter_mono (h : Ordered ms) (m : Message) :
    ms.Pairwise fun a b => b.notAfter m = true → a.notAfter m = true := by
  refine h.imp fun {a b} hab hb => ?_
  exact notAfter_iff.mpr (hab.trans (notAfter_iff.mp hb))

theorem takeWhile_notAfter (h : Ordered ms) (m : Message) :
    ms.takeWhile (·.notAfter m) = ms.filter (·.notAfter m) :=
  takeWhile_eq_filter (notAfter_mono h m)

theorem dropWhile_notAfter (h : Ordered ms) (m : Message) :
    ms.dropWhile (·.notAfter m) = ms.filter (m.before ·) := by
  simp only [dropWhile_eq_filter (notAfter_mono h m), not_notAfter]

/-- A message goes in behind those that do not order after it. -/
theorem ordered_insert (h : Ordered ms) (m : Message) :
    Ordered (ms.takeWhile (·.notAfter m) ++ m :: ms.dropWhile (·.notAfter m)) := by
  rw [takeWhile_notAfter h, dropWhile_notAfter h]
  refine List.pairwise_append.mpr ⟨h.filter _, List.pairwise_cons.mpr ⟨?_, h.filter _⟩, ?_⟩
  · intro b hb
    exact (before_iff.mp (List.mem_filter.mp hb).2).le
  · intro a ha b hb
    have ham := notAfter_iff.mp (List.mem_filter.mp ha).2
    rcases List.mem_cons.mp hb with rfl | hb
    · exact ham
    · exact ham.trans (before_iff.mp (List.mem_filter.mp hb).2).le

end Message

end BookFeed
