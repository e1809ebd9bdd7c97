/-
CaptureSplit.Proofs.Directories — names in a directory.

The path of a name in a directory is the path of the directory and the name,
with a slash between them if one is needed (`Path.join_eq_append`). It leads
through the names of the directory (`Path.steps`) and then on by the name
(`Path.parts_join`), be there a slash at the end of the directory's path or
not. So where the directory's own path leads to a location, the name is entered
from there (`Disk.resolve_join`); and a path of this kind that leads anywhere
leads there by its name (`Disk.exists_enter_of_join`).
-/
import CaptureSplit.Proofs.Creation
import CaptureSplit.Proofs.FileNames

namespace CaptureSplit

namespace Path

/-- The names that lead to what is in a directory. -/
def steps (directory : Path) : List Name :=
  if directory = [] then []
  else if directory.getLast? = some slash then parts directory.dropLast
  else directory.parts

/-- What is put between the path of a directory and a name in it. -/
def separator (directory : Path) : Path :=
  if directory = [] ∨ directory.getLast? = some slash then [] else [slash]

theorem isAbsolute_eq_false {p : Path} (h : slash ∉ p) : p.isAbsolute = false := by
  have hnil : ([] ++ p : Path).isAbsolute = false := isAbsolute_append h
  rwa [List.nil_append] at hnil

theorem join_eq_append (directory : Path) {name : Name} (h : slash ∉ name) :
    directory.join name = directory ++ directory.separator ++ name := by
  rw [join, isAbsolute_eq_false h, separator]
  by_cases hnil : directory = []
  · simp [hnil]
  · by_cases hlast : directory.getLast? = some slash
    · simp [hnil, hlast]
    · simp [hnil, hlast]

/-- With a slash in front of it, a name would not be put in the directory. -/
example : join [0x6F] [slash, 0x61] = [slash, 0x61] := by decide

theorem parts_join (directory : Path) {name : Name} (h : slash ∉ name) :
    (directory.join name).parts = directory.steps ++ [name] := by
  have hname : name.splitOn slash = [name] := List.splitOn_eq_singleton h
  rw [join_eq_append directory h, separator, steps]
  by_cases hnil : directory = []
  · simp [hnil, parts, hname]
  · by_cases hlast : directory.getLast? = some slash
    · obtain ⟨base, rfl⟩ := List.getLast?_eq_some_iff.mp hlast
      rw [if_pos (.inr hlast), if_neg hnil, if_pos hlast, List.append_nil, List.append_assoc,
        List.singleton_append, List.dropLast_concat, parts, parts, List.splitOn_append_cons_self,
        hname]
    · rw [if_neg (not_or.mpr ⟨hnil, hlast⟩), if_neg hnil, if_neg hlast, List.append_assoc,
        List.singleton_append, parts, parts, List.splitOn_append_cons_self, hname]

/-- A slash at the end of a path adds an empty name to those before it. -/
theorem parts_of_getLast? {p : Path} (h : p.getLast? = some slash) :
    p.parts = parts p.dropLast ++ [[]] := by
  obtain ⟨base, rfl⟩ := List.getLast?_eq_some_iff.mp h
  rw [List.dropLast_concat, parts, parts, List.splitOn_append_cons_self]
  rfl

theorem isAbsolute_join (directory : Path) {name : Name} (h : slash ∉ name) :
    (directory.join name).isAbsolute = directory.isAbsolute := by
  rw [join_eq_append directory h, List.append_assoc]
  cases directory with
  | nil => exact isAbsolute_append h
  | cons b rest => rfl

theorem join_inj {directory : Path} {name name' : Name} (hname : slash ∉ name)
    (hname' : slash ∉ name') (h : directory.join name = directory.join name') : name = name' := by
  rw [join_eq_append directory hname, join_eq_append directory hname'] at h
  exact List.append_cancel_left h

theorem mem_join_iff {directory : Path} {name : Name} (h : slash ∉ name) {b : UInt8}
    (hb : b ≠ slash) : b ∈ directory.join name ↔ b ∈ directory ∨ b ∈ name := by
  rw [join_eq_append directory h, separator]
  split <;> simp [hb]

end Path

namespace Disk

/-- The location that the walk along a path starts from. -/
def origin (d : Disk) (p : Path) : Location := if p.isAbsolute then [] else d.home

theorem enter_nil {d : Disk} {here l : Location} (h : d.enter here [] = .ok l) : l = here := by
  unfold enter at h
  split at h
  · cases h
  · cases h
  · exact (Except.ok.inj h).symm

theorem resolve_eq_ok_iff {d : Disk} {p : Path} {l : Location} :
    d.resolve p = .ok l ↔ 0 ∉ p ∧ p ≠ [] ∧ p.length < pathLimit ∧
      d.walk (d.origin p) p.parts = .ok l := by
  rw [resolve, origin]
  by_cases hzero : 0 ∈ p
  · simp [hzero]
  · by_cases hnil : p = []
    · simp [hnil]
    · by_cases hlong : p.length ≥ pathLimit
      · simp [hzero, hnil, hlong, Nat.not_lt.mpr hlong]
      · simp [hzero, hnil, hlong, Nat.not_le.mp hlong]

/-- A path that leads to a location leads there as a directory, too. -/
theorem walk_steps {d : Disk} {p : Path} {l : Location} (h : d.resolve p = .ok l) :
    d.walk (d.origin p) p.steps = .ok l := by
  obtain ⟨-, hnil, -, hwalk⟩ := resolve_eq_ok_iff.mp h
  rw [Path.steps, if_neg hnil]
  split
  · next hlast =>
    rw [Path.parts_of_getLast? hlast, walk_append] at hwalk
    cases hhere : d.walk (d.origin p) (Path.parts p.dropLast) with
    | error e => simp [hhere, Except.bind] at hwalk
    | ok here =>
      simp only [hhere, Except.bind] at hwalk
      rw [enter_nil hwalk]
  · exact hwalk

/-- The directory that the names of a path lead to is where the path leads. -/
theorem resolve_of_walk_steps {d : Disk} {p : Path} {l : Location} (hzero : 0 ∉ p) (hnil : p ≠ [])
    (hlong : p.length < pathLimit) (hd : d.find? l = some .directory)
    (h : d.walk (d.origin p) p.steps = .ok l) : d.resolve p = .ok l := by
  refine resolve_eq_ok_iff.mpr ⟨hzero, hnil, hlong, ?_⟩
  rw [Path.steps, if_neg hnil] at h
  split at h
  · next hlast =>
    rw [Path.parts_of_getLast? hlast, walk_append, h]
    simp [Except.bind, enter, hd]
  · exact h

/-- A name in what a path leads to is entered from there. -/
theorem resolve_join {d : Disk} {p : Path} {l : Location} (h : d.resolve p = .ok l) {name : Name}
    (hslash : Path.slash ∉ name) (hzero : 0 ∉ name) :
    d.resolve (p.join name) =
      if (p.join name).length ≥ pathLimit then .error .nameTooLong else d.enter l name := by
  obtain ⟨hzero', hnil, -, -⟩ := resolve_eq_ok_iff.mp h
  have hzero'' : 0 ∉ p.join name := by
    rw [Path.mem_join_iff hslash (by decide)]
    simp [hzero, hzero']
  have hnil' : p.join name ≠ [] := by
    simp [Path.join_eq_append p hslash, hnil]
  rw [resolve, if_neg (by simpa using hzero''), if_neg hnil', Path.isAbsolute_join p hslash,
    Path.parts_join p hslash, walk_append]
  rw [show d.walk (if p.isAbsolute then [] else d.home) p.steps = .ok l from walk_steps h]
  rfl

/-- Where the path of a name in a directory leads, the name has been entered. -/
theorem exists_enter_of_join {d : Disk} {directory : Path} {name : Name} {l : Location}
    (hslash : Path.slash ∉ name) (h : d.resolve (directory.join name) = .ok l) :
    ∃ here, d.walk (d.origin directory) directory.steps = .ok here ∧ d.enter here name = .ok l := by
  obtain ⟨-, -, -, hwalk⟩ := resolve_eq_ok_iff.mp h
  rw [origin, Path.isAbsolute_join directory hslash, Path.parts_join directory hslash,
    walk_append] at hwalk
  rw [origin]
  cases hhere : d.walk (if directory.isAbsolute then [] else d.home) directory.steps with
  | error e => simp [hhere, Except.bind] at hwalk
  | ok here =>
    simp only [hhere, Except.bind] at hwalk
    exact ⟨here, rfl, hwalk⟩

end Disk
end CaptureSplit
