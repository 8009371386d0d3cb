/-!
# Sorted association lists

A finite map as the list of its entries in strictly increasing order of their keys. The order is a
function `cmp`, which may see two spellings of one key as equal: `insert` then keeps the spelling
that came first and replaces the value.
-/

namespace BookFeed.Sorted

variable {α β : Type}

/-- The value at a key. -/
def get? (cmp : α → α → Ordering) (k : α) : List (α × β) → Option β
  | [] => none
  | (k', v) :: rest => if cmp k k' = .eq then some v else get? cmp k rest

/-- Puts a value at a key. -/
def insert (cmp : α → α → Ordering) (k : α) (v : β) : List (α × β) → List (α × β)
  | [] => [(k, v)]
  | (k', v') :: rest =>
    match cmp k k' with
    | .lt => (k, v) :: (k', v') :: rest
    | .eq => (k', v) :: rest
    | .gt => (k', v') :: insert cmp k v rest

/-- Takes a key away. -/
def erase (cmp : α → α → Ordering) (k : α) : List (α × β) → List (α × β)
  | [] => []
  | (k', v') :: rest => if cmp k k' = .eq then rest else (k', v') :: erase cmp k rest

/-- Puts a key into a sorted list of keys, unless it is there. -/
def insertKey (cmp : α → α → Ordering) (k : α) : List α → List α
  | [] => [k]
  | k' :: rest =>
    match cmp k k' with
    | .lt => k :: k' :: rest
    | .eq => k' :: rest
    | .gt => k' :: insertKey cmp k rest

end BookFeed.Sorted
