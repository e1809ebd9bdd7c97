/-
CaptureSplit.CommandLine.Usage — the texts about the command line.

Help comes in a short form, a line for each argument, and in a long one.
Both show what the environment holds for a setting. The text of a fault
begins with `error:`, gives a tip where there is one, names the usage in
most cases, and ends by pointing to the help. What somebody typed stands in
the texts of faults as marked stretches; what the environment holds stands
in help texts as bare ones. Marks are shown in help only, and only where
the environment asks for them.
-/
import CaptureSplit.CommandLine.Parse
import CaptureSplit.Text.Plain

namespace CaptureSplit.CommandLine

open CaptureSplit.Text (Span)

/-! ## The program -/

/-- The program's own name. -/
def ownName : String := "rtps-conv-extract"

/-- The line that answers a request for the version. -/
def versionText : String := ownName ++ " 0.1.0\n"

/-- What the program is for. -/
def about : String := "Splits the UDP conversations of a capture into one file per packet"

/-- The name in usage lines: the final name of the path by which the
program was started, if that is text, else its own. -/
def usageName (program : Option Bytes) : String :=
  match program.bind Path.fileName? with
  | none => ownName
  | some name => (Text.Utf8.toString? name).getD ownName

/-- The choice of all arguments, in one pair of brackets. -/
def allArguments : String :=
  "<" ++ "|".intercalate (Positional.all.map Positional.valueName ++ Setting.all.map Setting.display)
    ++ ">"

/-- What a usage line shows behind the name. -/
def Outline.text : Outline → String
  | .general => " [OPTIONS] <PCAP_FILE> <OUTPUT_DIR>"
  | .options listed => String.join (listed.map (" " ++ ·)) ++ " <PCAP_FILE> <OUTPUT_DIR>"
  | .choice option => " " ++ option ++ " " ++ allArguments

/-- A usage line. -/
def usage (name : String) (outline : Outline) : List Span :=
  [.heading "Usage:", .bare " ", .marked name, .bare outline.text]

/-! ## Help -/

/-- A text with a margin in front of all its lines but the first. -/
def hanging (margin text : String) : String :=
  ("\n" ++ margin).intercalate ((text.toList.splitOn '\n').map String.ofList)

/-- The environment's share in a help text. -/
def environmentNote? (e : Environment) (s : Setting) : Option String :=
  s.environmentName?.map fun v =>
    "[env: " ++ v ++ "=" ++ Text.Utf8.toStringLossy ((e.value? s).getD []) ++ "]"

/-- The default's share in a help text. -/
def defaultNote (s : Setting) : String := "[default: " ++ s.default ++ "]"

/-- The possible values, in one line. -/
def possibleNote? (values : List String) : Option String :=
  if values.isEmpty then none
  else some ("[possible values: " ++ ", ".intercalate values ++ "]")

/-- So many blanks. -/
def blanks (n : Nat) : String := String.ofList (List.replicate n ' ')

/-- A text filled up with blanks to a width. -/
def padded (width : Nat) (s : String) : String := s ++ blanks (width - s.length)

/-- An argument and its explanation in one line. -/
def shortLine (width : Nat) (shown explanation : String) : String :=
  "  " ++ padded width shown ++ "  " ++ explanation ++ "\n"

/-- The width of the column of options in the short help. -/
def optionWidth : Nat := 27

/-- The explanation of a setting in the short help. -/
def shortExplanation (e : Environment) (s : Setting) : String :=
  " ".intercalate
    ([s.purpose] ++ (environmentNote? e s).toList ++ [defaultNote s] ++
      (possibleNote? s.possibleValues).toList)

/-- A setting in the short help. -/
def shortSetting (e : Environment) (s : Setting) : List Span :=
  let name := "--" ++ s.option
  [.bare (blanks 6), .marked name,
    .bare (padded (optionWidth - 4 - name.length) (" <" ++ s.valueName ++ ">") ++ "  " ++
      hanging (blanks (optionWidth + 4)) (shortExplanation e s) ++ "\n")]

/-- A request, by its letter and its option, in front of its explanation. -/
def request (letter option explanation : String) : List Span :=
  [.bare "  ", .marked letter, .bare ", ", .marked option, .bare explanation]

/-- A request in the short help. -/
def shortRequest (letter option explanation : String) : List Span :=
  request letter option
    (blanks (optionWidth - letter.length - 2 - option.length) ++ "  " ++ explanation ++ "\n")

/-- The short help. -/
def shortHelp (name : String) (e : Environment) : List Span :=
  [.bare (about ++ "\n\n")] ++ usage name .general ++
  [.bare "\n\n", .heading "Arguments:", .bare ("\n" ++
    shortLine 12 Positional.capture.display "Capture file to read" ++
    shortLine 12 Positional.directory.display "Existing directory receiving the packet files" ++
    "\n"), .heading "Options:", .bare "\n"] ++
  Setting.all.flatMap (shortSetting e) ++
  shortRequest "-h" "--help" "Print help (see more with '--help')" ++
  shortRequest "-V" "--version" "Print version"

/-- The margin of explanations in the long help. -/
def margin : String := blanks 10

/-- A line of the long help behind the margin. -/
def marginLine (s : String) : String := margin ++ s ++ "\n"

/-- A value and what it means. -/
def meaning (value explanation : String) : List Span :=
  [.bare (margin ++ "- "), .marked value, .bare (": " ++ explanation ++ "\n")]

/-- The lines of the long help that list possible values. The empty line
in front of them has no margin. -/
def longPossible : Setting → List Span
  | .mode =>
    [.bare ("\n" ++ marginLine "Possible values:")] ++
      meaning "report" "Fixed line offsets into the `conv,udp` and `follow,udp,raw` reports" ++
      meaning "fields" "One dissector pass reading the `udp.stream` and `udp.payload` fields"
  | _ => []

/-- What the long help says of a setting last. -/
def longNotes (e : Environment) (s : Setting) : String :=
  marginLine "" ++
  String.join ((environmentNote? e s).toList.map fun note => marginLine (hanging margin note)) ++
  marginLine (defaultNote s)

/-- A setting in the long help. -/
def longSetting (e : Environment) (s : Setting) : List Span :=
  [.bare (blanks 6), .marked ("--" ++ s.option),
    .bare (" <" ++ s.valueName ++ ">\n" ++ marginLine s.purpose)] ++
  longPossible s ++ [.bare (longNotes e s ++ "\n")]

/-- A request in the long help. -/
def longRequest (letter option explanation : String) : List Span :=
  request letter option ("\n" ++ marginLine explanation)

/-- The long help. -/
def longHelp (name : String) (e : Environment) : List Span :=
  [.bare (about ++ "\n\n")] ++ usage name .general ++
  [.bare "\n\n", .heading "Arguments:", .bare ("\n  " ++ Positional.capture.display ++ "\n" ++
    marginLine "Capture file to read" ++
    "\n  " ++ Positional.directory.display ++ "\n" ++
    marginLine "Existing directory receiving the packet files" ++
    "\n"), .heading "Options:", .bare "\n"] ++
  Setting.all.flatMap (longSetting e) ++
  longRequest "-h" "--help" "Print help (see a summary with '-h')" ++ [.bare "\n"] ++
  longRequest "-V" "--version" "Print version"

/-! ## Faults -/

/-- The line of a fault that lists possible values. -/
def possibleLine (values : List String) : String :=
  String.join ((possibleNote? values).toList.map ("\n  " ++ ·))

/-- What goes wrong, in a line; possible values and missing arguments have
lines of their own. -/
def Fault.head : Fault → List Span
  | .unknownArgument argument _ _ =>
    [.bare "unexpected argument '", .marked argument, .bare "' found"]
  | .valueMissing display possible =>
    [.bare "a value is required for '", .marked display,
      .bare ("' but none was supplied" ++ possibleLine possible)]
  | .invalidValue value setting =>
    [.bare "invalid value '", .marked value, .bare "' for '", .marked setting.display,
      .bare ("'" ++ possibleLine setting.possibleValues)]
  | .notUtf8 => [.bare "invalid UTF-8 was detected in one or more arguments"]
  | .repeated setting =>
    [.bare "the argument '", .marked setting.display, .bare "' cannot be used multiple times"]
  | .unexpectedValue value option _ =>
    [.bare "unexpected value '", .marked value, .bare "' for '", .marked option,
      .bare "' found; no more were expected"]
  | .missingArguments missing _ =>
    .bare "the following required arguments were not provided:" ::
      missing.flatMap fun p => [.bare "\n  ", .marked p.display]

/-- The advice to use something else. -/
def similarTip (kind proposal : String) : List Span :=
  [.bare ("a similar " ++ kind ++ " exists: '"), .marked proposal, .bare "'"]

/-- The advice of a fault, if it has any. -/
def Fault.tip? : Fault → Option (List Span)
  | .unknownArgument _ (.similar option) _ => some (similarTip "argument" option)
  | .unknownArgument argument .asValue _ =>
    some [.bare "to pass '", .marked argument, .bare "' as a value, use '",
      .marked ("-- " ++ argument), .bare "'"]
  | .invalidValue value setting =>
    (Similarity.suggestion? value setting.possibleValues).map (similarTip "value")
  | _ => none

/-- The outline of a fault's usage line. A fault in a value has none. -/
def Fault.outline? : Fault → Option Outline
  | .unknownArgument _ _ outline => some outline
  | .valueMissing .. => none
  | .invalidValue .. => none
  | .notUtf8 => some .general
  | .repeated _ => some .general
  | .unexpectedValue _ _ outline => some outline
  | .missingArguments _ listed => some (.options listed)

/-- The text of a fault. -/
def Fault.text (f : Fault) (name : String) : List Span :=
  [.marked "error:", .bare " "] ++ f.head ++
  f.tip?.toList.flatMap (.bare "\n\n  tip: " :: ·) ++
  f.outline?.toList.flatMap (fun outline => .bare "\n\n" :: usage name outline) ++
  [.bare "\n\nFor more information, try '--help'.\n"]

/-- A help text as the environment has it shown. -/
def shown (e : Environment) (help : List Span) : String :=
  if e.isColored then Text.colored help else Text.plainStream help

/-- The text of whatever ends the reading of a command line. What was asked
for is shown as a stream, a fault at once. -/
def Stop.text (s : Stop) (program : Option Bytes) (e : Environment) : String :=
  match s with
  | .help true => shown e (longHelp (usageName program) e)
  | .help false => shown e (shortHelp (usageName program) e)
  | .version => Text.plainStream [.bare versionText]
  | .fault f => Text.plain (f.text (usageName program))

end CaptureSplit.CommandLine
