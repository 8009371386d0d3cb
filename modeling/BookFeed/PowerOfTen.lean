/-!
# Powers of ten
-/

namespace BookFeed

/-- Ten to the power of `n`: a one with `n` zeros. -/
def powerOfTen (n : Nat) : Nat := Nat.pow 10 n

theorem powerOfTen_succ (n : Nat) : powerOfTen (n + 1) = powerOfTen n * 10 := rfl

theorem powerOfTen_pos (n : Nat) : 0 < powerOfTen n := Nat.pow_pos (by decide)

end BookFeed
