/-!
# Rounding quotients

A quotient of natural numbers rounded to the nearest integer, with the two usual ways to settle a
half.
-/

namespace BookFeed

/-- `n / d` rounded to the nearest integer, a half to the even neighbour. -/
def roundHalfEven (n d : Nat) : Nat :=
  let q := n / d
  let r := n % d
  if d < 2 * r ∨ (2 * r = d ∧ q % 2 = 1) then q + 1 else q

/-- `n / d` rounded to the nearest integer, a half upward. -/
def roundHalfUp (n d : Nat) : Nat := (2 * n + d) / (2 * d)

/-- Rounding to the nearest integer, a half upward, never leads beyond the dividend. -/
theorem roundHalfUp_le (n : Nat) {d : Nat} (h : 0 < d) : roundHalfUp n d ≤ n := by
  have hn : n * 1 ≤ n * d := Nat.mul_le_mul_left n h
  have hd : (n + 1) * (2 * d) = 2 * (n * d) + 2 * d := by
    rw [Nat.add_mul, Nat.mul_left_comm, Nat.one_mul]
  exact Nat.le_of_lt_succ ((Nat.div_lt_iff_lt_mul (by omega)).2 (by rw [Nat.succ_eq_add_one]; omega))

end BookFeed
