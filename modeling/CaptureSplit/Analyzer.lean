/-
CaptureSplit.Analyzer — what is asked of a packet analyzer.

An analyzer answers three questions about a capture; each answer may be a
failure. A `Query` is a question on its own: the record of a run lists
the questions in the order in which they were asked.
-/
import CaptureSplit.Dissection

namespace CaptureSplit

/-- A question about a capture. -/
inductive Query where
  /-- The table of its UDP conversations. -/
  | conversations (capture : Path)
  /-- The dump of one conversation. -/
  | follow (capture : Path) (index : Nat)
  /-- The UDP fields of every packet. -/
  | dissection (capture : Path)
  deriving DecidableEq

/-- The answers of an analyzer. -/
structure Analyzer where
  /-- The report that lists the UDP conversations of a capture. -/
  conversationReport : Path → Except Failure String
  /-- The report that dumps one conversation, a packet in each row. -/
  followReport : Path → Nat → Except Failure String
  /-- The UDP fields of every packet, in the order of the capture. -/
  udpEntries : Path → Except Failure (List Dissection.Entry)

end CaptureSplit
