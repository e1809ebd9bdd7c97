/-
CaptureSplit.Disk — the file system that packets are written to.

A disk is a list of locations with what stands there, and the location
that relative paths start from. `resolve` walks a path to the location it
denotes, as the system does: every name but the last must lead to a
directory, two dots go up in the tree, and the location at the end need
not hold anything yet. `create` puts content there, over whatever file
stood there before.

A write to a location that is listed already changes the entry in its
place, so writing the same content twice gives the same disk, not only
the same view of it. What `find?` sees after `put` is said by `find?_put`.
There are no links, no permissions but the one to execute, and no limit
to the space.
-/
import CaptureSplit.Path
import CaptureSplit.SystemFault

namespace CaptureSplit

/-- A place in the tree: the names from the root to it. -/
abbrev Location := List Name

/-- What stands at a location. -/
inductive Entry where
  | directory
  | file (content : Bytes) (executable : Bool)
  deriving DecidableEq

/-- A file system and the directory that a program runs in. -/
structure Disk where
  entries : List (Location × Entry)
  home : Location
  deriving DecidableEq

namespace Disk

/-! ## Looking up and putting -/

/-- What is listed first for a location. -/
def findIn (entries : List (Location × Entry)) (l : Location) : Option Entry :=
  match entries with
  | [] => none
  | (k, e) :: rest => if k = l then some e else findIn rest l

/-- What stands at a location. The root is a directory. -/
def find? (d : Disk) (l : Location) : Option Entry :=
  if l = [] then some .directory else findIn d.entries l

/-- Changes the entry of a location, or lists it last. -/
def putIn (entries : List (Location × Entry)) (l : Location) (e : Entry) :
    List (Location × Entry) :=
  match entries with
  | [] => [(l, e)]
  | (k, old) :: rest => if k = l then (k, e) :: rest else (k, old) :: putIn rest l e

/-- The disk with an entry at a location. -/
def put (d : Disk) (l : Location) (e : Entry) : Disk :=
  { d with entries := putIn d.entries l e }

theorem findIn_putIn (entries : List (Location × Entry)) (l m : Location) (e : Entry) :
    findIn (putIn entries l e) m = if l = m then some e else findIn entries m := by
  induction entries with
  | nil => simp [putIn, findIn]
  | cons head rest ih =>
    obtain ⟨k, old⟩ := head
    by_cases hkl : k = l
    · subst hkl
      by_cases hkm : k = m <;> simp [putIn, findIn, hkm]
    · by_cases hkm : k = m
      · subst hkm
        have hlk : ¬ l = k := fun h => hkl h.symm
        simp [putIn, findIn, hkl, hlk]
      · simp [putIn, findIn, hkl, hkm, ih]

/-- A put is seen at its location and nowhere else. -/
theorem find?_put (d : Disk) {l : Location} (m : Location) (e : Entry) (h : l ≠ []) :
    (d.put l e).find? m = if l = m then some e else d.find? m := by
  by_cases hm : m = []
  · subst hm; simp [find?, h]
  · simp [find?, put, hm, findIn_putIn]

/-! ## Walking a path -/

/-- The longest name that a directory can hold, in bytes. -/
def maxName : Nat := 255

/-- A path of this many bytes, or more, is refused unread. -/
def pathLimit : Nat := 4096

/-- The location that a name leads to from a directory. -/
def enter (d : Disk) (here : Location) (name : Name) : Except SystemFault Location :=
  match d.find? here with
  | none => .error .noSuchFile
  | some (.file ..) => .error .notADirectory
  | some .directory =>
    if name = [] ∨ name = Path.here then .ok here
    else if name = Path.above then .ok here.dropLast
    else if name.length > maxName then .error .nameTooLong
    else .ok (here ++ [name])

/-- The location that names lead to, one after the other. -/
def walk (d : Disk) (here : Location) : List Name → Except SystemFault Location
  | [] => .ok here
  | name :: rest =>
    match d.enter here name with
    | .error e => .error e
    | .ok next => d.walk next rest

/-- The location that a path denotes, whether or not anything stands
there. -/
def resolve (d : Disk) (p : Path) : Except SystemFault Location :=
  if p.contains 0 then .error .nulInFileName
  else if p = [] then .error .noSuchFile
  else if p.length ≥ pathLimit then .error .nameTooLong
  else d.walk (if p.isAbsolute then [] else d.home) p.parts

/-- What stands where a path leads. -/
def lookUp (d : Disk) (p : Path) : Except SystemFault Entry :=
  match d.resolve p with
  | .error e => .error e
  | .ok l =>
    match d.find? l with
    | none => .error .noSuchFile
    | some e => .ok e

/-! ## Writing -/

/-- Whether a new file made over an old one may be executed: creating
keeps the permissions of a file that is there. -/
def keepsExecutable : Option Entry → Bool
  | some (.file _ executable) => executable
  | _ => false

/-- The disk with `content` as all that is in the file at a path, be the
file new or not. -/
def create (d : Disk) (p : Path) (content : Bytes) : Except SystemFault Disk :=
  match d.resolve p with
  | .error e => .error e
  | .ok l =>
    match d.find? l with
    | some .directory => .error .isADirectory
    | found => .ok (d.put l (.file content (keepsExecutable found)))

end Disk
end CaptureSplit
