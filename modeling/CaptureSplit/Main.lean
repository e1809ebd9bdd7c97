/-
CaptureSplit.Main — the program on the command line.

The analyzer is not run from here: its answers are taken from standard
input, in the form of `CaptureSplit.Recording`. Of the file system, what
the paths of the command line lead through is looked at before the run,
and the files that the run leaves behind are written after it.
-/
import CaptureSplit.Program
import CaptureSplit.Recording

namespace CaptureSplit.Main

open CaptureSplit.Text.Utf8 (ofString toStringLossy)

/-! ## The file system -/

/-- A location as a path from the root. -/
def absolute (l : Location) : String := "/" ++ "/".intercalate (l.map toStringLossy)

/-- The location that a path denotes where there are no links. -/
def locationOf (home : Location) (p : Path) : Location :=
  (Path.names p).foldl (fun l n => if n = Path.above then l.dropLast else l ++ [n])
    (if p.isAbsolute then [] else home)

/-- Lists what stands at a location, if anything does. Every file is taken
to be executable. -/
def observe (d : Disk) (l : Location) : IO Disk := do
  let place := (← IO.currentDir) / absolute l
  if ← place.isDir then return d.put l .directory
  else if ← place.pathExists then
    return d.put l (.file (← IO.FS.readBinFile place).toList true)
  else return d

/-- Lists all that a location is reached through, and the location. -/
def observeAlong (d : Disk) (l : Location) : IO Disk :=
  (List.range l.length).foldlM (fun d n => observe d (l.take (n + 1))) d

/-- Lists what stands in a directory. -/
def observeIn (d : Disk) (l : Location) : IO Disk := do
  let place := (← IO.currentDir) / absolute l
  if ← place.isDir then
    (← place.readDir).foldlM (fun d e => observe d (l ++ [ofString e.fileName])) d
  else return d

/-- The paths of a name in the directories of a search path. -/
def pathsIn (searchPath name : Bytes) : List Path :=
  (searchDirectories searchPath).map fun directory => Path.join directory name

/-- The paths at which the analyzer's program may stand. -/
def programPaths (s : CommandLine.Settings) (searchPath : Bytes) : List Path :=
  let setting := ofString s.tshark
  let reports := if setting.contains Path.slash then [setting] else pathsIn searchPath setting
  reports ++ pathsIn setting (ofString Tshark.dissector)

/-- The part of the file system that a run may depend on. -/
def observeFor (s : CommandLine.Settings) (searchPath : Bytes) (d : Disk) : IO Disk := do
  let paths := s.capture :: s.directory :: programPaths s searchPath
  let seen ← (paths.map (locationOf d.home)).foldlM observeAlong d
  observeIn seen (locationOf d.home s.directory)

/-- Writes the files in which two states of a disk differ. -/
def writeChanges (before after : Disk) : IO Unit := do
  let here ← IO.currentDir
  for (l, e) in after.entries do
    if before.find? l ≠ some e then
      match e with
      | .file content _ => IO.FS.writeBinFile (here / absolute l) ⟨content.toArray⟩
      | .directory => pure ()

/-! ## The process -/

/-- All of the standard input. -/
def readInput : IO Bytes := do
  let input ← IO.getStdin
  let mut read := ByteArray.empty
  repeat
    let more ← input.read 65536
    if more.isEmpty then break
    read := read ++ more
  return read.toList

/-- What an environment variable holds. -/
def heldBy (name : String) : IO (Option Bytes) := do
  return (← IO.getEnv name).map ofString

/-- The environment variable of a setting. -/
def environmentValue (s : CommandLine.Setting) : IO (Option Bytes) := do
  match s.environmentName? with
  | none => return none
  | some name => heldBy name

/-- How the process was started. -/
def invocation (arguments : List String) : IO Program.Invocation := do
  let program := ofString (← IO.appPath).toString
  let environment : CommandLine.Environment :=
    ⟨← environmentValue .tshark, ← environmentValue .filter, ← environmentValue .mode,
      ← heldBy "NO_COLOR", ← heldBy "CLICOLOR_FORCE"⟩
  return ⟨program :: arguments.map ofString, environment⟩

/-- The host of a run, and its disk as it has been observed. -/
def observeHost (i : Program.Invocation) : IO Host := do
  let home := locationOf [] (ofString (← IO.currentDir).toString)
  let searchPath := ofString ((← IO.getEnv "PATH").getD "")
  let d ← observeAlong ⟨[], home⟩ home
  match CommandLine.parse i.arguments i.environment with
  | .error _ => return ⟨d, searchPath, fun _ _ => Recording.missing⟩
  | .ok s =>
    let seen ← observeFor s searchPath d
    let recorded := Recording.answers (← readInput)
    return ⟨seen, searchPath, fun _ arguments => Recording.perform recorded arguments⟩

end CaptureSplit.Main

open CaptureSplit in
/-- Runs the program once. -/
def main (arguments : List String) : IO UInt32 := do
  let i ← Main.invocation arguments
  let h ← Main.observeHost i
  let result := Program.run i h
  Main.writeChanges h.disk result.disk
  IO.print result.stdout
  IO.eprint result.stderr
  return UInt32.ofNat result.exitCode
