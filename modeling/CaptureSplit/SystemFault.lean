/-
CaptureSplit.SystemFault — why the operating system refuses a request.

Opening a file, looking a path up and starting a program end in one of
these causes; `message` gives the wording of each.
-/

namespace CaptureSplit

/-- A cause for which opening a file or starting a program fails. -/
inductive SystemFault where
  | noSuchFile
  | argumentsTooLong
  | permissionDenied
  | notADirectory
  | isADirectory
  | nameTooLong
  /-- A path to be opened contains a NUL byte. -/
  | nulInFileName
  /-- A program, an argument or a search path contains a NUL byte. -/
  | nulInArgument
  /-- Something that has to be there before a dissection can start is not. -/
  | unableToFind (what : String)
  deriving DecidableEq

/-- The wording of a cause. -/
def SystemFault.message : SystemFault → String
  | .noSuchFile => "No such file or directory (os error 2)"
  | .argumentsTooLong => "Argument list too long (os error 7)"
  | .permissionDenied => "Permission denied (os error 13)"
  | .notADirectory => "Not a directory (os error 20)"
  | .isADirectory => "Is a directory (os error 21)"
  | .nameTooLong => "File name too long (os error 36)"
  | .nulInFileName => "file name contained an unexpected NUL byte"
  | .nulInArgument => "nul byte found in provided data"
  | .unableToFind what =>
    s!"Unable to find {what}: No such file or directory (os error 2)"

end CaptureSplit
