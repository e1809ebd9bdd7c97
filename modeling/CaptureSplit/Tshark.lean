/-
CaptureSplit.Tshark — the analyzer as a program on a host.

Each question of `Query` becomes one run of a program. The reports run
the program that the settings name. The dissection runs a program that is
always called `tshark`, and takes the setting for the directories to
search it in; before that, the capture has to be there.

A report is the standard output of a run that succeeded, and must be
text. A dissection is read from the standard output of its run, whatever
the status of the run. Where it can be read to the end, a run that has
anything to say on standard error fails with the first line of it.
-/
import CaptureSplit.Analyzer
import CaptureSplit.Host
import CaptureSplit.Pdml

namespace CaptureSplit

/-- The analyzer's settings. -/
structure Tshark where
  program : String
  /-- The display filter that selects packets. -/
  filter : String
  deriving DecidableEq

namespace Tshark

open CaptureSplit.Text.Utf8 (ofString)

/-! ## Commands -/

/-- The name of a statistic, as the analyzer takes it. -/
def followStatistic (index : Nat) : String := "follow,udp,raw," ++ toString index

/-- The run that prints a statistic of a capture. -/
def reportCommand (t : Tshark) (h : Host) (capture : Path) (statistic : String) : Command where
  program := ofString t.program
  arguments :=
    [ofString "-2", ofString "-R", ofString t.filter, ofString "-r", capture,
      ofString "-q", ofString "-z", ofString statistic]
  searchPath := h.searchPath

/-- The program that dissects. -/
def dissector : String := "tshark"

/-- The run that dissects a capture. An empty filter is not passed on, and
an empty setting leaves the host's own search path. -/
def dissectionCommand (t : Tshark) (h : Host) (capture : Path) : Command where
  program := ofString dissector
  arguments :=
    [ofString "-r", capture, ofString "-Tpdml", ofString "-n", ofString "-Q", ofString "-l"] ++
      if t.filter.isEmpty then [] else [ofString "-Y", ofString t.filter]
  searchPath := if t.program.isEmpty then h.searchPath else ofString t.program

/-- A fault of a dissection's start, naming what is not there. -/
def notFound (what : String) : SystemFault → SystemFault
  | .noSuchFile => .unableToFind what
  | other => other

/-- Starts the dissection of a capture that is there. -/
def launchDissection (t : Tshark) (h : Host) (capture : Path) : Except SystemFault Launch :=
  match h.disk.lookUp capture with
  | .error e => .error (notFound capture.display e)
  | .ok _ => (h.launch (t.dissectionCommand h capture)).mapError (notFound dissector)

/-- Starts the program that answers a question. -/
def launch (t : Tshark) (h : Host) : Query → Except Failure Launch
  | .conversations capture =>
    (h.launch (t.reportCommand h capture "conv,udp")).mapError (.analyzerNotStarted t.program)
  | .follow capture index =>
    (h.launch (t.reportCommand h capture (followStatistic index))).mapError
      (.analyzerNotStarted t.program)
  | .dissection capture =>
    match Text.Utf8.toString? capture with
    | none => .error (.captureNotUtf8 capture)
    | some _ => (t.launchDissection h capture).mapError (.analyzerNotStarted t.program)

/-- The program runs that a question leads to: one, or none. -/
def launches (t : Tshark) (h : Host) (q : Query) : List Launch :=
  match t.launch h q with
  | .ok l => [l]
  | .error _ => []

/-! ## Answers -/

/-- What a failed run printed as its error, as text without the white
space around it. -/
def errorText (e : Ending) : String :=
  String.ofList (Text.trim (Text.Utf8.decodeLossy e.stderr))

/-- The report that a run printed. Its success counts before its text. -/
def readReport (t : Tshark) (e : Ending) : Except Failure String :=
  if e.status.isSuccess then
    match Text.Utf8.decode e.stdout with
    | .ok cs => .ok (String.ofList cs)
    | .error fault => .error (.outputNotUtf8 fault)
  else .error (.analyzerFailed t.program e.status (errorText e))

/-- The byte that ends a line. -/
def lineFeed : UInt8 := 0x0A

/-- The first line of what was printed, with the byte that ends it. -/
def firstLine (printed : Bytes) : Bytes :=
  printed.takeWhile (· ≠ lineFeed) ++ (printed.dropWhile (· ≠ lineFeed)).take 1

/-- What a run that has dissected complains of, if it says anything. -/
def complaint? (stderr : Bytes) : Option Pdml.Fault :=
  if stderr.isEmpty then none
  else
    match Text.Utf8.toString? (firstLine stderr) with
    | some line => some (.complaint line)
    | none => some .complaintNotUtf8

/-- The entries of the dissection that a run printed. A fault in the document
counts before a complaint. -/
def readDissection (t : Tshark) (e : Ending) : Except Failure (List Dissection.Entry) :=
  match Pdml.read e.stdout with
  | .error fault => .error (.dissectorFailed t.program fault)
  | .ok entries =>
    match complaint? e.stderr with
    | some fault => .error (.dissectorFailed t.program fault)
    | none => .ok entries

/-- The report that answers a question. -/
def report (t : Tshark) (h : Host) (q : Query) : Except Failure String :=
  match t.launch h q with
  | .error e => .error e
  | .ok l => t.readReport l.ending

/-- The UDP fields of the packets of a capture. -/
def udpEntries (t : Tshark) (h : Host) (capture : Path) :
    Except Failure (List Dissection.Entry) :=
  match t.launch h (.dissection capture) with
  | .error e => .error e
  | .ok l => t.readDissection l.ending

/-- The analyzer that a host provides. -/
def analyzer (t : Tshark) (h : Host) : Analyzer where
  conversationReport capture := t.report h (.conversations capture)
  followReport capture index := t.report h (.follow capture index)
  udpEntries capture := t.udpEntries h capture

end Tshark
end CaptureSplit
