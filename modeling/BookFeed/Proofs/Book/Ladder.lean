import BookFeed.Book.Basic
import BookFeed.Proofs.Decimal.Order
import BookFeed.Proofs.Sorted
import Mathlib.Data.List.Induction

/-!
# Ladders under rows

A ladder in strict order has each price once, however it is spelled.

* `get?_foldl_merge`: after rows have been merged, the last row with a price says what is there, and
  a price without a row is as before;
* `foldl_fill_eq`: filling in the levels of a ladder gives that ladder again.
-/

namespace BookFeed

instance (side : Side) : Std.TransCmp side.order :=
  match side with
  | .bid => inferInstanceAs (Std.TransCmp fun p q : Decimal => q.compare p)
  | .ask => inferInstanceAs (Std.TransCmp Decimal.compare)

namespace Side

variable {side : Side} {p q : Decimal}

/-- Prices of a side are equal if they are the same number. -/
theorem order_eq_iff : side.order p q = .eq ↔ p.value = q.value := by
  cases side with
  | bid => exact Decimal.compare_eq_eq_iff.trans eq_comm
  | ask => exact Decimal.compare_eq_eq_iff

theorem order_bid_lt_iff : Side.bid.order p q = .lt ↔ q.value < p.value := by
  rw [order, Decimal.compare_eq_compare_value, compare_lt_iff_lt]

theorem order_ask_lt_iff : Side.ask.order p q = .lt ↔ p.value < q.value := by
  rw [order, Decimal.compare_eq_compare_value, compare_lt_iff_lt]

end Side

namespace Ladder

variable {side : Side} {l : Ladder}

/-- Each price once, the better ones first. -/
abbrev Strict (side : Side) (l : Ladder) : Prop := Sorted.Strict side.order l

/-- The amount that a row puts at its price. -/
def leaves (row : Row) : Option Decimal := if row.amount.isPositive then some row.amount else none

theorem strict_merge (hl : l.Strict side) (row : Row) : (l.merge side row).Strict side := by
  unfold merge
  split
  · exact Sorted.strict_insert hl _ _
  · exact Sorted.strict_erase hl _

theorem get?_merge (hl : l.Strict side) (row : Row) (p : Decimal) :
    (l.merge side row).get? side p =
      if side.order p row.price = .eq then leaves row else l.get? side p := by
  unfold merge leaves get?
  split
  · exact Sorted.get?_insert _ _ _ _
  · exact Sorted.get?_erase hl _ _

theorem strict_foldl_merge (hl : l.Strict side) (rows : List Row) :
    (rows.foldl (merge side) l).Strict side := by
  induction rows generalizing l with
  | nil => exact hl
  | cons row rows ih => exact ih (strict_merge hl row)

/-- **The last row with a price says what is there.** -/
theorem get?_foldl_merge (hl : l.Strict side) (rows : List Row) (p : Decimal) :
    Ladder.get? side p (rows.foldl (merge side) l) =
      match rows.reverse.find? fun row => side.order p row.price == .eq with
      | some row => leaves row
      | none => l.get? side p := by
  induction rows using List.reverseRecOn with
  | nil => rfl
  | append_singleton rows row ih =>
    rw [List.foldl_append, List.reverse_append]
    show ((rows.foldl (merge side) l).merge side row).get? side p = _
    rw [get?_merge (strict_foldl_merge hl rows), List.reverse_singleton, List.singleton_append,
      List.find?_cons, ih]
    by_cases h : side.order p row.price = .eq
    · simp only [h, if_true, beq_self_eq_true]
    · simp only [h, if_false, beq_eq_false_iff_ne.mpr h]

/-- Rows leave ladders alike that were alike, whatever of the amounts is looked at. -/
theorem map_get?_foldl_merge {α : Type} {l' : Ladder} (f : Decimal → α) (hl : l.Strict side)
    (hl' : l'.Strict side) (h : ∀ p, (l.get? side p).map f = (l'.get? side p).map f)
    (rows : List Row) (p : Decimal) :
    (Ladder.get? side p (rows.foldl (merge side) l)).map f =
      (Ladder.get? side p (rows.foldl (merge side) l')).map f := by
  rw [get?_foldl_merge hl, get?_foldl_merge hl']
  split
  · rfl
  · exact h p

/-- Filling in the levels of a ladder, best price first, gives the ladder. -/
theorem foldl_fill_eq (hl : l.Strict side) (hpos : ∀ e ∈ l, e.2.isPositive = true)
    (updateId : UInt64) :
    (l.map fun e => (⟨e.1, e.2, updateId⟩ : Row)).foldl (fill side) [] = l := by
  induction l using List.reverseRecOn with
  | nil => rfl
  | append_singleton l e ih =>
    obtain ⟨hl, -, hlast⟩ := List.pairwise_append.mp hl
    have hpos' : ∀ e' ∈ l, e'.2.isPositive = true := fun e' he' =>
      hpos e' (List.mem_append_left _ he')
    rw [List.map_append, List.foldl_append, ih hl hpos']
    show fill side l ⟨e.1, e.2, updateId⟩ = l ++ [e]
    rw [fill, if_pos (hpos e List.mem_concat_self)]
    refine Sorted.insert_of_gt fun e' he' => ?_
    exact Std.OrientedCmp.gt_iff_lt.mpr (hlast e' he' e (List.mem_singleton_self e))

end Ladder

end BookFeed
