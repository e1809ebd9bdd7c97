/-
CaptureSplit.Pdml.Fault — why a dissection is not taken.

Most causes lie in the document. The last two do not: where the document can be
read to its end, what the program that wrote it says on standard error decides.
-/
import CaptureSplit.Text.Utf8

namespace CaptureSplit.Pdml

/-- A cause for which a dissection is not taken. -/
inductive Fault where
  /-- The document is not well-formed markup. -/
  | malformedMarkup
  /-- An attribute met on the way to the one wanted is malformed, or its
  key has been met before. -/
  | malformedAttribute
  | valueNotUtf8
  /-- No attribute has the key; `attributes` is the text after the tag's
  name. -/
  | missingKey (key : String) (attributes : Bytes)
  | badTimestamp (value : String)
  /-- The program has something to say, beginning with this line. -/
  | complaint (line : String)
  /-- What it says begins with a line that is no text. -/
  | complaintNotUtf8
  deriving DecidableEq

/-- The text behind a tag's name as a fault shows it: all of it or, if it is
not text throughout, none of it. -/
def attributesText (attributes : Bytes) : String :=
  (Text.Utf8.toString? attributes).getD "Unable to decode UTF8 XML buffer"

/-- The wording of a cause. -/
def Fault.message : Fault → String
  | .malformedMarkup => "xml parsing error"
  | .malformedAttribute => "Error decoding xml attribute"
  | .valueNotUtf8 => "Error decoding utf8 value"
  | .missingKey key attributes =>
    "xml lookup error: no key '" ++ key ++ "' in '" ++ attributesText attributes ++ "'"
  | .badTimestamp value => "Error decoding timestamp: " ++ value
  | .complaint line => line
  | .complaintNotUtf8 => "stream did not contain valid UTF-8"

end CaptureSplit.Pdml
