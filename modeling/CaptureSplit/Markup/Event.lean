/-
CaptureSplit.Markup.Event — tags with their names, properly nested.

`events` reads the tokens of a document with the names of the elements
that are open, innermost first. An end tag has to close the innermost
open element, blanks behind its name aside; an element may still be open
when the document ends. The events stop at the first fault.
-/
import CaptureSplit.Markup.Token

namespace CaptureSplit.Markup

/-- The name of a tag and the text behind it. -/
structure Tag where
  name : Bytes
  attributes : Bytes
  deriving DecidableEq

/-- A tag from what stands between its brackets. -/
def Tag.ofContent (content : Bytes) : Tag :=
  ⟨content.takeWhile fun b => !isBlank b, content.dropWhile fun b => !isBlank b⟩

/-- What a document says, tag by tag. -/
inductive Event where
  | opened (tag : Tag)
  /-- An element that ends where it starts. -/
  | empty (tag : Tag)
  | closed (name : Bytes)
  | malformed
  deriving DecidableEq

/-- The name in an end tag, without the blanks behind it. Blanks alone are
taken as they are, so they close nothing. -/
def endName (content : Bytes) : Bytes :=
  if content.all isBlank then content else (content.reverse.dropWhile isBlank).reverse

/-- The events of tokens, `names` being the elements that are open. -/
def eventsFrom (names : List Bytes) : List Token → List Event
  | [] => []
  | .malformed :: _ => [.malformed]
  | .opening content :: rest =>
    if content.getLast? = some 0x2F then
      .empty (Tag.ofContent content.dropLast) :: eventsFrom names rest
    else
      .opened (Tag.ofContent content) ::
        eventsFrom ((Tag.ofContent content).name :: names) rest
  | .closing content :: rest =>
    match names with
    | name :: outer =>
      if endName content = name then .closed name :: eventsFrom outer rest
      else [.malformed]
    | [] => [.malformed]

/-- The events of a document. -/
def events (document : Bytes) : List Event := eventsFrom [] (tokens document)

end CaptureSplit.Markup
