/-
CaptureSplit.CommandLine.Request — what ends the reading of a command
line early.

Arguments can ask for help or for the version, and they can be wrong in
seven ways. A fault keeps what its text needs: the argument at fault, and
what the usage line is to show of the options.
-/
import CaptureSplit.CommandLine.Setting

namespace CaptureSplit.CommandLine

/-- The advice that goes with an unknown argument. -/
inductive Tip where
  | none
  /-- A known option resembles it. -/
  | similar (option : String)
  /-- It can be passed as a value behind two hyphens. -/
  | asValue
  deriving DecidableEq

/-- What a usage line shows in front of the positions. -/
inductive Outline where
  /-- That there are options. -/
  | general
  /-- The options that matter, as they are listed. -/
  | options (listed : List String)
  /-- One option, and in place of the positions a choice of all arguments. -/
  | choice (option : String)
  deriving DecidableEq

/-- Why the arguments are refused. -/
inductive Fault where
  | unknownArgument (argument : String) (tip : Tip) (outline : Outline)
  /-- An option or a position has no value or an empty one. -/
  | valueMissing (display : String) (possible : List String)
  | invalidValue (value : String) (setting : Setting)
  | notUtf8
  | repeated (setting : Setting)
  /-- An option that takes no value has one. -/
  | unexpectedValue (value option : String) (outline : Outline)
  | missingArguments (missing : List Positional) (listed : List String)
  deriving DecidableEq

/-- Why reading stops before the end. -/
inductive Stop where
  | help (long : Bool)
  | version
  | fault (f : Fault)
  deriving DecidableEq

end CaptureSplit.CommandLine
