/-
CaptureSplit.Failure — everything that can end an extraction.

A failure is its cause, not its wording. `message` is the one line that
tells it; `causes` is what lies beneath, the outermost first, as a final
report lists them. Only failures that stem from another party's refusal
have a cause of their own.
-/
import CaptureSplit.ExitStatus
import CaptureSplit.Packet.Hex
import CaptureSplit.Path
import CaptureSplit.Pdml.Fault
import CaptureSplit.SystemFault

namespace CaptureSplit

/-- Why an extraction ended early. -/
inductive Failure where
  /-- The analyzer could not be started. -/
  | analyzerNotStarted (program : String) (cause : SystemFault)
  /-- The analyzer ended without success. -/
  | analyzerFailed (program : String) (status : ExitStatus) (stderr : String)
  /-- A report of the analyzer is no text. -/
  | outputNotUtf8 (fault : Text.Utf8.Fault)
  /-- A packet's digits cannot be read. -/
  | malformedHex (line : String) (fault : Hex.Fault)
  /-- The dissection cannot be read, or its program complains. -/
  | dissectorFailed (program : String) (fault : Pdml.Fault)
  /-- A dissection needs a capture whose path is text. -/
  | captureNotUtf8 (capture : Path)
  /-- A packet's stream index is no number of at most 64 bits. -/
  | badStreamIndex (text : String)
  /-- The path of the capture ends in no name. -/
  | noCaptureName (capture : Path)
  /-- A packet's file could not be created. -/
  | notWritten (path : Path) (cause : SystemFault)
  deriving DecidableEq

namespace Failure

/-- The wording of what lies directly beneath a failure, if anything does. -/
def cause? : Failure → Option String
  | .analyzerNotStarted _ cause => some cause.message
  | .outputNotUtf8 fault => some fault.message
  | .malformedHex _ fault => some fault.message
  | .dissectorFailed _ fault => some fault.message
  | .notWritten _ cause => some cause.message
  | .analyzerFailed .. | .captureNotUtf8 _ | .badStreamIndex _ | .noCaptureName _ => none

/-- The wording of a failure. -/
def message : Failure → String
  | .analyzerNotStarted program cause =>
    "could not run analyzer `" ++ program ++ "`: " ++ cause.message
  | .analyzerFailed program status stderr =>
    "analyzer `" ++ program ++ "` exited with " ++ status.message ++ ": " ++ stderr
  | .outputNotUtf8 _ => "analyzer output is not valid UTF-8"
  | .malformedHex line fault =>
    "malformed hex in packet line " ++ Text.Quoted.string line ++ ": " ++ fault.message
  | .dissectorFailed program fault =>
    "dissector `" ++ program ++ "` failed: " ++ fault.message
  | .captureNotUtf8 capture =>
    "capture path " ++ capture.quoted ++ " is not valid UTF-8"
  | .badStreamIndex text => "invalid udp.stream index " ++ Text.Quoted.string text
  | .noCaptureName capture => "capture path " ++ capture.quoted ++ " has no file name"
  | .notWritten path cause =>
    "could not write " ++ path.quoted ++ ": " ++ cause.message

/-- A failure and what lies beneath it, outermost first. -/
def chain (f : Failure) : List String := f.message :: f.cause?.toList

end Failure
end CaptureSplit
