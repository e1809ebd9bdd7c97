/-
CaptureSplit.Recording — an analyzer's answers kept for a later run.

A recording is a sequence of answers. An answer is a line with four words,
one blank between any two of them, and then what the analyzer printed:

    request exit-code stdout-length stderr-length

The request is the argument that tells runs apart: `conv,udp`, or
`follow,udp,raw,` and an index, or `-Tpdml`. The two lengths are numbers
of bytes; the standard output comes first. Reading stops at a line that is
no such line, and a run whose request is not recorded fails.
-/
import CaptureSplit.Host
import CaptureSplit.Text.Decimal

namespace CaptureSplit.Recording

/-- What the analyzer printed on one request. -/
structure Answer where
  request : Bytes
  ending : Ending
  deriving DecidableEq

/-- The byte that ends a line. -/
def lineFeed : UInt8 := 0x0A

/-- The byte between two words. -/
def blank : UInt8 := 0x20

/-- The number that a word denotes. -/
def number? (word : Bytes) : Option Nat :=
  (Text.Utf8.toString? word).bind fun s => Text.Decimal.digits? s.toList

/-- The answer that a line announces and `body` begins with, and what is
left of the body. -/
def answerOf? (line body : Bytes) : Option (Answer × Bytes) :=
  match line.splitOn blank with
  | [request, code, out, err] =>
    match number? code, number? out, number? err with
    | some c, some o, some e =>
      some (⟨request, ⟨.exited c, body.take o, (body.drop o).take e⟩⟩, body.drop (o + e))
    | _, _, _ => none
  | _ => none

/-- The first answer and what follows it. -/
def front? (recording : Bytes) : Option (Answer × Bytes) :=
  match recording.dropWhile (· ≠ lineFeed) with
  | [] => none
  | _ :: body => answerOf? (recording.takeWhile (· ≠ lineFeed)) body

/-- At most `count` answers from the start. -/
def answersUpTo : Nat → Bytes → List Answer
  | 0, _ => []
  | count + 1, recording =>
    match front? recording with
    | none => []
    | some (answer, rest) => answer :: answersUpTo count rest

/-- The answers of a recording. Each takes a byte at least. -/
def answers (recording : Bytes) : List Answer := answersUpTo recording.length recording

/-- How a run ends that nothing is recorded of. -/
def missing : Ending :=
  ⟨.exited 1, [], Text.Utf8.ofString "no recorded answer"⟩

/-- How a run with arguments ends by the answers. -/
def perform (recorded : List Answer) (arguments : List Bytes) : Ending :=
  match recorded.find? fun a => arguments.contains a.request with
  | some a => a.ending
  | none => missing

end CaptureSplit.Recording
