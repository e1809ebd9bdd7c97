/-
CaptureSplit.CommandLine.Setting — what can be set, and how it is spelt.

A setting is given as an option with a value, taken from an environment
variable, or left at its default. The table here holds its spellings; the
capture and the output directory are given by position.
-/
import CaptureSplit.Extraction

namespace CaptureSplit.CommandLine

/-- A setting with a name. -/
inductive Setting where
  | tshark
  | filter
  | mode
  | logLevel
  deriving DecidableEq

namespace Setting

/-- The settings in the order in which they are listed. -/
def all : List Setting := [.tshark, .filter, .mode, .logLevel]

/-- The option's name, without the two hyphens in front of it. -/
def option : Setting → String
  | .tshark => "tshark"
  | .filter => "filter"
  | .mode => "mode"
  | .logLevel => "log-level"

/-- What stands for the option's value in a usage text. -/
def valueName : Setting → String
  | .tshark => "TSHARK"
  | .filter => "FILTER"
  | .mode => "MODE"
  | .logLevel => "LOG_LEVEL"

/-- The option with its value, as usage texts and faults show it. -/
def display (s : Setting) : String := "--" ++ s.option ++ " <" ++ s.valueName ++ ">"

/-- The environment variable of a setting. -/
def environmentName? : Setting → Option String
  | .tshark => some "TSHARK"
  | .filter => some "CONV_EXTRACT_FILTER"
  | .mode => some "CONV_EXTRACT_MODE"
  | .logLevel => none

/-- The values of a setting that admits only some. -/
def possibleValues : Setting → List String
  | .mode => ["report", "fields"]
  | _ => []

/-- The value of a setting that is given nowhere. -/
def default : Setting → String
  | .tshark => "tshark"
  | .filter => "rtps"
  | .mode => "fields"
  | .logLevel => "info"

/-- What a setting is for. -/
def purpose : Setting → String
  | .tshark => "Packet analyzer executable"
  | .filter => "Display filter selecting the packets to extract"
  | .mode => "How conversations are read from the analyzer"
  | .logLevel => "Log filter used when RUST_LOG is not set"

end Setting

/-- An argument given by its position. -/
inductive Positional where
  | capture
  | directory
  deriving DecidableEq

/-- The positions in their order. -/
def Positional.all : List Positional := [.capture, .directory]

/-- What stands for a positional argument in a usage text. -/
def Positional.valueName : Positional → String
  | .capture => "PCAP_FILE"
  | .directory => "OUTPUT_DIR"

/-- A positional argument, as usage texts and faults show it. -/
def Positional.display (p : Positional) : String := "<" ++ p.valueName ++ ">"

/-- The mode that a value names. -/
def mode? (value : String) : Option Mode :=
  if value = "report" then some .report
  else if value = "fields" then some .fields
  else none

/-- Everything that a run needs to know. -/
structure Settings where
  capture : Path
  directory : Path
  tshark : String
  filter : String
  mode : Mode
  logLevel : String
  deriving DecidableEq

/-- The environment variables that count: those that settings are taken
from, and two about the look of help. -/
structure Environment where
  tshark : Option Bytes
  filter : Option Bytes
  mode : Option Bytes
  /-- `NO_COLOR`. -/
  noColor : Option Bytes
  /-- `CLICOLOR_FORCE`. -/
  forcedColor : Option Bytes
  deriving DecidableEq

/-- Whether a variable, given what it holds, holds anything. -/
def isSet (held : Option Bytes) : Bool := held.any fun value => !value.isEmpty

/-- Whether help is shown with its marks. To ask for none wins. -/
def Environment.isColored (e : Environment) : Bool := isSet e.forcedColor && !isSet e.noColor

/-- What the environment says of a setting. -/
def Environment.value? (e : Environment) : Setting → Option Bytes
  | .tshark => e.tshark
  | .filter => e.filter
  | .mode => e.mode
  | .logLevel => none

end CaptureSplit.CommandLine
