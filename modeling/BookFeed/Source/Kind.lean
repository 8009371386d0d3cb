import BookFeed.Error
import BookFeed.Text.Blank

/-!
# Kinds of message sources

Order book messages come either from a feed inside the process or from polling an endpoint for
snapshots. The kind is chosen by its name, where neither blanks around it nor the case of ASCII
letters count.
-/

namespace BookFeed

/-- Where the messages on order books come from. -/
inductive SourceKind where
  | channel
  | rest
deriving DecidableEq, Repr

namespace SourceKind

def name : SourceKind → String
  | channel => "channel"
  | rest => "rest"

/-- The text in lower case, as far as it is ASCII. -/
def lower (s : String) : String := String.ofList (s.toList.map Char.toLower)

/-- The kind of this name. -/
def ofName (text : String) : Except Error SourceKind :=
  let name := lower (Text.trim text)
  if name = channel.name then .ok channel
  else if name = rest.name then .ok rest
  else .error (.unsupportedDataSource name)

end SourceKind

end BookFeed
