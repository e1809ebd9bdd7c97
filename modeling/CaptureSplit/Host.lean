/-
CaptureSplit.Host — starting programs.

A host is a disk, the directories that programs are searched in, and what
each executable does when it is started. `launch` finds the program of a
command as the system does and starts it, or says why it cannot:

* a program with a slash in it is a path; any other is searched for in
  the directories of the search path, in order;
* the search goes on past a directory that lacks the program and past one
  where it may not be executed; if nothing is found, a program that may
  not be executed decides over one that is not there;
* a directory whose path is too long for any path is not searched: it
  stands for the directory that paths start from, or for nothing if it is
  the last.
-/
import CaptureSplit.Disk
import CaptureSplit.ExitStatus

namespace CaptureSplit

/-- How a program ended and what it had printed. -/
structure Ending where
  status : ExitStatus
  stdout : Bytes
  stderr : Bytes
  deriving DecidableEq

/-- A program to be started. -/
structure Command where
  program : Bytes
  arguments : List Bytes
  /-- The directories to search, with colons between them. -/
  searchPath : Bytes
  deriving DecidableEq

/-- A program that has been started. -/
structure Launch where
  executable : Location
  arguments : List Bytes
  ending : Ending
  deriving DecidableEq

/-- Where programs run. -/
structure Host where
  disk : Disk
  searchPath : Bytes
  /-- What the executable at a location does with arguments. -/
  perform : Location → List Bytes → Ending

/-- The location of the executable file at a path. A directory may not be
executed, nor may a file that is not marked as executable. -/
def Disk.executable (d : Disk) (p : Path) : Except SystemFault Location :=
  match d.resolve p with
  | .error e => .error e
  | .ok l =>
    match d.find? l with
    | none => .error .noSuchFile
    | some (.file _ true) => .ok l
    | some _ => .error .permissionDenied

/-- Searches directories for a program. `denied` says whether one has been
found that may not be executed, `last` is the fault met last. -/
def Disk.search (d : Disk) (program : Name) (denied : Bool) (last : SystemFault) :
    List Path → Except SystemFault Location
  | [] => .error (if denied then .permissionDenied else last)
  | directory :: rest =>
    match d.executable (directory.join program) with
    | .ok l => .ok l
    | .error .noSuchFile => d.search program denied .noSuchFile rest
    | .error .notADirectory => d.search program denied .notADirectory rest
    | .error .permissionDenied => d.search program true .permissionDenied rest
    | .error other => .error other

/-- The byte between the directories of a search path. -/
def colon : UInt8 := 0x3A

/-- Whether a directory of a search path is too long to be the path of
anything. -/
def isOverlong (directory : Path) : Bool := directory.length ≥ Disk.pathLimit

/-- The directories of a search path, in order. -/
def searchDirectories (searchPath : Bytes) : List Path :=
  let all := searchPath.splitOn colon
  let kept := if all.getLast?.any isOverlong then all.dropLast else all
  kept.map fun directory => if isOverlong directory then [] else directory

/-- The executable that a program's name stands for. -/
def Disk.programAt (d : Disk) (program searchPath : Bytes) : Except SystemFault Location :=
  if program = [] then .error .noSuchFile
  else if program.contains Path.slash then d.executable program
  else d.search program false .noSuchFile (searchDirectories searchPath)

/-- Whether a command contains a byte that none may contain. -/
def Command.hasNul (c : Command) : Bool :=
  c.program.contains 0 || c.searchPath.contains 0 || c.arguments.any (·.contains 0)

/-- The longest argument that a program can be given, in bytes. -/
def argumentLimit : Nat := 131071

/-- Whether a string that a command hands over is too long. The search path
is handed over behind its name and an equals sign. -/
def Command.isOverlong (c : Command) : Bool :=
  c.arguments.any (fun a => a.length > argumentLimit) || c.searchPath.length + 5 > argumentLimit

/-- Starts a command. -/
def Host.launch (h : Host) (c : Command) : Except SystemFault Launch :=
  if c.hasNul then .error .nulInArgument
  else
    match h.disk.programAt c.program c.searchPath with
    | .error e => .error e
    | .ok l =>
      if c.isOverlong then .error .argumentsTooLong
      else .ok ⟨l, c.arguments, h.perform l c.arguments⟩

end CaptureSplit
