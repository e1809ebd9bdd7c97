/-
CaptureSplit.Dissection — what a dissection says of each packet.

Of every packet the analyzer shows the stream index and the payload, or
lacks them. `group` gathers the complete entries into conversations. It
stops at the first complete entry that cannot be read, the index before
the payload; an entry that lacks either field is passed over, however
malformed the other one is.
-/
import CaptureSplit.Conversation
import CaptureSplit.Text.Decimal

namespace CaptureSplit.Dissection

/-- The UDP fields of one packet, as the analyzer shows them. -/
structure Entry where
  stream : Option String
  payload : Option String
  deriving DecidableEq

/-- An entry of a packet that is no UDP packet. -/
def Entry.blank : Entry := ⟨none, none⟩

/-- The greatest stream index. -/
def maxIndex : Nat := UInt64.size - 1

/-- The stream index that a text denotes, white space around it aside. -/
def streamIndex? (text : String) : Option Nat :=
  Text.Decimal.unsigned? maxIndex (Text.trim text.toList)

/-- Adds the entries, in order, to what has been gathered. -/
def groupFrom (gathered : Buffers) : List Entry → Except Failure Buffers
  | [] => .ok gathered
  | ⟨some stream, some payload⟩ :: rest =>
    match streamIndex? stream with
    | none => .error (.badStreamIndex stream)
    | some index =>
      match Packet.ofField payload with
      | .error e => .error e
      | .ok packet => groupFrom (gathered.add index packet) rest
  | _ :: rest => groupFrom gathered rest

/-- The conversations of a dissection, ascending by index. -/
def group (entries : List Entry) : Except Failure (List Conversation) :=
  groupFrom Buffers.empty entries

end CaptureSplit.Dissection
