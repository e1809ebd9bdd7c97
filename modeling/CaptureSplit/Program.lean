/-
CaptureSplit.Program — the program as a whole.

Arguments that ask for help or for the version are answered on standard
output. Arguments that are refused are explained on standard error and
nothing is run; the explanation ends with the program's name, and where that
is no text, the program breaks off instead. Otherwise one extraction is run;
if it fails, standard error names the capture and lists the causes, and if it
succeeds, the summary follows the dots on standard output. Directives of the
log filter that cannot be read are reported on standard error before the
extraction.
-/
import CaptureSplit.CommandLine.Usage
import CaptureSplit.LogFilter
import CaptureSplit.Summary
import CaptureSplit.Tshark

namespace CaptureSplit.Program

/-- How the program is started. The first argument is its name. -/
structure Invocation where
  arguments : List Bytes
  environment : CommandLine.Environment
  deriving DecidableEq

/-- All that a run of the program leaves behind. -/
structure Result where
  exitCode : Nat
  stdout : String
  stderr : String
  disk : Disk
  launches : List Launch
  deriving DecidableEq

/-! ## Failures as reported -/

/-- The lines of a text behind a lead, those after the first behind a lead
of their own. -/
def indented (first later text : String) : String :=
  match text.toList.splitOn '\n' with
  | [] => first
  | line :: rest =>
    first ++ String.ofList line ++
      String.join (rest.map fun l => "\n" ++ later ++ String.ofList l)

/-- Numbered causes, the first of them having the number `n`. -/
def numberedFrom (n : Nat) : List String → String
  | [] => ""
  | cause :: rest =>
    indented ("\n    " ++ toString n ++ ": ") "       " cause ++ numberedFrom (n + 1) rest

/-- The list of causes: a single one stands by itself, several are
numbered. -/
def causes : List String → String
  | [cause] => indented "\n    " "    " cause
  | many => numberedFrom 0 many

/-- The report of a failed extraction. -/
def failureText (capture : Path) (f : Failure) : String :=
  "Error: failed to extract " ++ capture.display ++ "\n\nCaused by:" ++
    causes f.chain ++ "\n"

/-- The line that follows the text of a fault in the arguments. -/
def refusalText (name : String) : String := "Usage: " ++ name ++ " <pcap file> <output dir>\n"

/-- What is said of a name that is no text, behind the place in the program
where it breaks off. -/
def breakText (name : Bytes) : String :=
  "called `Result::unwrap()` on an `Err` value: " ++ Path.quoted name ++ "\n"

/-! ## Running -/

/-- The result of arguments that are refused, with their explanation. -/
def refused (program : Option Bytes) (h : Host) (text : String) : Result :=
  match program with
  | none => ⟨1, "", text ++ refusalText CommandLine.ownName, h.disk, []⟩
  | some name =>
    match Text.Utf8.toString? name with
    | some name => ⟨1, "", text ++ refusalText name, h.disk, []⟩
    | none => ⟨101, "", breakText name, h.disk, []⟩

/-- The result of arguments that lead to no extraction. -/
def stopped (i : Invocation) (h : Host) (s : CommandLine.Stop) : Result :=
  let program := i.arguments.head?
  let text := s.text program i.environment
  match s with
  | .fault _ => refused program h text
  | _ => ⟨0, text, "", h.disk, []⟩

/-- The analyzer that settings choose. -/
def analyzer (settings : CommandLine.Settings) : Tshark := ⟨settings.tshark, settings.filter⟩

/-- The extraction that settings ask for. -/
def extraction (settings : CommandLine.Settings) (h : Host) : Outcome :=
  Extraction.run ((analyzer settings).analyzer h) settings.mode settings.capture
    settings.directory Statistics.zero h.disk

/-- The result of an extraction. -/
def extract (settings : CommandLine.Settings) (h : Host) : Result :=
  let o := extraction settings h
  let s := o.progress
  let launches := s.queries.flatMap ((analyzer settings).launches h)
  let dots := Summary.progress s.dots
  let warnings := LogFilter.warnings settings.logLevel
  match o.failure with
  | some f => ⟨1, dots, warnings ++ failureText settings.capture f, s.disk, launches⟩
  | none => ⟨0, dots ++ Summary.text s.statistics settings.directory, warnings, s.disk, launches⟩

/-- Runs the program on a host. -/
def run (i : Invocation) (h : Host) : Result :=
  match CommandLine.parse i.arguments i.environment with
  | .error s => stopped i h s
  | .ok settings => extract settings h

end CaptureSplit.Program
