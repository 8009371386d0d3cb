import BookFeed.Book.State

/-!
# Registered books

The books of all pairs in one place. Registering a pair gives a handle on its book; whoever has the
handle can read and write that book, also when the pair has been removed since. A pair that is
registered again after its removal has a new book, which old handles do not reach.

Only `register` makes a book. Looking a pair up never does.

Out of scope: the locks of the registry and of each book. Every operation is one step here, and
`BookFeed.Proofs.Tracker.Calls` says who has the lock of the registry.
-/

namespace BookFeed

/-- Tells one book of a registry from the others. -/
structure Handle where
  index : Nat
deriving DecidableEq, Repr

/-- The books by pair, and all books that a handle may still point to. -/
structure Registry where
  /-- the handles of the registered pairs, in the order of pairs -/
  entries : List (String × Handle) := []
  /-- every book there has been, by handle -/
  books : List Book := []

namespace Registry

def empty : Registry := {}

/-- The handle on the book of a registered pair. -/
def view? (r : Registry) (pair : String) : Option Handle := Sorted.get? compare pair r.entries

def contains (r : Registry) (pair : String) : Bool := (r.view? pair).isSome

/-- The book that a handle points to. -/
def read? (r : Registry) (h : Handle) : Option Book := r.books[h.index]?

/-- The book of a registered pair. -/
def book? (r : Registry) (pair : String) : Option Book := (r.view? pair).bind r.read?

/-- Changes the book that a handle points to. -/
def write (r : Registry) (h : Handle) (f : Book → Book) : Registry :=
  { r with books := r.books.modify h.index f }

/-- The handle on the book of a pair, which is made now unless it is there. -/
def register (r : Registry) (pair : String) : Registry × Handle :=
  match r.view? pair with
  | some h => (r, h)
  | none =>
    let h : Handle := ⟨r.books.length⟩
    (⟨Sorted.insert compare pair h r.entries, r.books ++ [.empty pair]⟩, h)

/-- Takes a pair away. -/
def remove (r : Registry) (pair : String) : Registry :=
  { r with entries := Sorted.erase compare pair r.entries }

/-- Takes every pair away. -/
def clear (r : Registry) : Registry := { r with entries := [] }

/-- The registered pairs, in order. -/
def pairs (r : Registry) : List String := r.entries.map (·.1)

def size (r : Registry) : Nat := r.entries.length

/-- The books of the registered pairs, in the order of pairs. -/
def registered (r : Registry) : List Book := r.entries.filterMap fun (_, h) => r.read? h

/-- The states of the registered books with at most `count` levels on each side, in the order of
pairs. -/
def states (r : Registry) (count : Nat) : Checked (List BookState) :=
  r.registered.mapM (·.state count)

end Registry

end BookFeed
