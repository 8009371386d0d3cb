/-!
# Log formats
-/

namespace BookFeed

/-- How log lines are written. -/
inductive LogFormat where
  | json
  | pretty
deriving DecidableEq, Repr

/-- The format of this name in ASCII letters of either case. An unknown name means `json`. -/
def LogFormat.ofName (text : String) : LogFormat :=
  let name := String.ofList (text.toList.map Char.toLower)
  if name = "pretty" ∨ name = "text" then pretty else json

end BookFeed
