/-
CaptureSplit.Path — paths as byte strings.

A path is a sequence of names separated by slashes; it need not be text.
`fileName?` gives the final name: empty names and single dots do not
count, and a path that ends in two dots, or has no name at all, has none.
`join` puts a path under a directory with one slash between them, none if
the directory's path is empty or ends with a slash already; a path that
starts at the root is not put under any directory.
-/
import CaptureSplit.Text.Quoted

namespace CaptureSplit

/-- A path of the file system. -/
abbrev Path := Bytes

/-- One name within a path. -/
abbrev Name := Bytes

namespace Path

/-- The byte that separates the names of a path. -/
def slash : UInt8 := 0x2F

/-- The name of a directory itself. -/
def here : Name := [0x2E]

/-- The name of the directory above. -/
def above : Name := [0x2E, 0x2E]

/-- What stands between the slashes of a path, empty names included. -/
def parts (p : Path) : List Name := p.splitOn slash

/-- The names of a path that lead anywhere: neither empty nor a dot. -/
def names (p : Path) : List Name :=
  (parts p).filter fun n => n ≠ [] ∧ n ≠ here

/-- The final name, unless the path ends by going up or names nothing. -/
def fileName? (p : Path) : Option Name :=
  match (names p).getLast? with
  | some n => if n = above then none else some n
  | none => none

/-- Whether a path starts at the root. -/
def isAbsolute (p : Path) : Bool := p.head? == some slash

/-- The path of a name in a directory. A path that starts at the root stands
for itself. -/
def join (directory : Path) (name : Path) : Path :=
  if name.isAbsolute then name
  else if directory.isEmpty then name
  else if directory.getLast? = some slash then directory ++ name
  else directory ++ slash :: name

/-- The path as text, U+FFFD standing for what is none. -/
def display (p : Path) : String := Text.Utf8.toStringLossy p

/-- The path between quotation marks. -/
def quoted (p : Path) : String := Text.Quoted.bytes p

end Path
end CaptureSplit
