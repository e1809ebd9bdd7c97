/-
CaptureSplit.Proofs.Placement — files directly inside the output directory.

Whatever the path of a capture holds, the name of a packet's file is one that
an entry of a directory can have (`Path.IsEntryName`): it is not empty, holds no
slash and is neither of the names made of dots. For the capture's name is the
final one of its path, so there is no slash in it; reading it as text brings
none in, whatever its bytes are; and what stands behind it is longer than two
dots.

The path of a directory with such a name behind it leads, if anywhere, to an
entry of the directory that its own path leads to
(`Disk.isInside_of_resolve_join`). So all that a run makes, and all that it
changes, is directly inside the output directory
(`Extraction.isInside_of_mem_made`).
-/
import CaptureSplit.Proofs.Captures

namespace CaptureSplit

open CaptureSplit.Text.Utf8 (ofString)

namespace Path

/-! ## Names of entries -/

/-- A name that an entry of a directory can have. -/
structure IsEntryName (name : Name) : Prop where
  nonempty : name ≠ []
  single : slash ∉ name
  not_here : name ≠ here
  not_above : name ≠ above

theorem isEntryName_packetFileName {captureName : String} (h : slash ∉ ofString captureName)
    (c p : Nat) : IsEntryName (ofString (packetFileName captureName c p)) := by
  have hlong := two_lt_length_packetFileName captureName c p
  have hne : ∀ name : Name, name.length ≤ 2 → ofString (packetFileName captureName c p) ≠ name := by
    intro name hshort heq
    rw [heq] at hlong
    omega
  exact ⟨hne [] (by decide), Output.slash_notMem_packetFileName h c p, hne here (by decide),
    hne above (by decide)⟩

end Path

/-! ## Places in a directory -/

namespace Disk

/-- The path leads to the directory at this location. The empty path does not
lead away from where the program runs. -/
def LeadsTo (d : Disk) (directory : Path) (here : Location) : Prop :=
  (if directory = [] then d.home = here else d.resolve directory = .ok here) ∧
    d.find? here = some .directory

/-- The location is one of an entry of the directory that the path leads to. -/
def IsInside (d : Disk) (directory : Path) (l : Location) : Prop :=
  ∃ here name, d.LeadsTo directory here ∧ Path.IsEntryName name ∧ l = here ++ [name]

theorem isInside_of_resolve_join {d : Disk} {directory : Path} {name : Name} {l : Location}
    (hname : Path.IsEntryName name) (h : d.resolve (directory.join name) = .ok l) :
    d.IsInside directory l := by
  obtain ⟨here, hwalk, henter⟩ := exists_enter_of_join hname.single h
  have hd : d.find? here = some .directory := directory_of_enter henter
  refine ⟨here, name, ⟨?_, hd⟩, hname,
    enter_eq_append hname.nonempty hname.not_here hname.not_above henter⟩
  split
  · next hnil =>
    subst hnil
    exact Except.ok.inj hwalk
  · next hnil =>
    obtain ⟨hzero, -, hlong, -⟩ := resolve_eq_ok_iff.mp h
    rw [Path.mem_join_iff hname.single (by decide), not_or] at hzero
    rw [Path.join_eq_append directory hname.single, List.length_append, List.length_append] at hlong
    exact resolve_of_walk_steps hzero.1 hnil (by omega) hd hwalk

end Disk

/-! ## Packets -/

namespace Output

/-- The path of a packet is the directory's with the name of an entry. -/
theorem exists_entryName {capture directory : Path} {o : Output}
    (ho : ofCapture capture directory = .ok o) (c p : Nat) :
    ∃ name, Path.IsEntryName name ∧ o.packetPath c p = directory.join name := by
  obtain ⟨name, hname, rfl⟩ := exists_of_ofCapture ho
  have hslash := slash_notMem_toStringLossy (Path.slash_notMem_of_fileName? hname)
  exact ⟨_, Path.isEntryName_packetFileName hslash c p, rfl⟩

theorem isInside_of_resolve_packetPath {capture directory : Path} {o : Output}
    (ho : ofCapture capture directory = .ok o) {d : Disk} {c p : Nat} {l : Location}
    (h : d.resolve (o.packetPath c p) = .ok l) : d.IsInside directory l := by
  obtain ⟨name, hname, hpath⟩ := exists_entryName ho c p
  rw [hpath] at h
  exact Disk.isInside_of_resolve_join hname h

end Output

namespace Extraction

/-- Whether a capture has a name or not, a run leaves the directories alone. -/
theorem run_sameTree (a : Analyzer) (mode : Mode) (capture directory : Path)
    (statistics : Statistics) (disk : Disk) :
    Disk.SameTree disk (run a mode capture directory statistics disk).progress.disk := by
  cases ho : Output.ofCapture capture directory with
  | ok o => exact (run_samePlaces a mode statistics disk ho).tree
  | error e =>
    rw [run, ho]
    exact .refl disk

theorem isInside_of_mem_made {a : Analyzer} {mode : Mode} {capture directory : Path} {disk : Disk}
    {f : Path × Bytes} (hf : f ∈ made a mode capture directory disk) {l : Location}
    (hl : disk.resolve f.1 = .ok l) : disk.IsInside directory l := by
  cases ho : Output.ofCapture capture directory with
  | ok o =>
    obtain ⟨c, p, hpath⟩ := made_ofPackets a mode disk ho f hf
    rw [hpath] at hl
    exact Output.isInside_of_resolve_packetPath ho hl
  | error e => simp [made, filesOf, ho] at hf

/-- The path of a packet is the path of the output directory, a slash if one is
needed, and one name, which holds no slash and does not lead out of the
directory or nowhere. A run makes no directory; the files that it makes are
directly inside the output directory; and so is whatever it changes, which is a
file afterwards. None of this depends on what is in the path of the capture. -/
theorem packets_directly_inside (capture directory : Path) :
    (∀ o, Output.ofCapture capture directory = .ok o → ∀ c p, ∃ name, Path.IsEntryName name ∧
      o.packetPath c p = directory ++ directory.separator ++ name) ∧
    ∀ (a : Analyzer) (mode : Mode) (statistics : Statistics) (disk : Disk),
      let after := (run a mode capture directory statistics disk).progress.disk
      Disk.SameTree disk after ∧
      (disk.Wrote after fun path content =>
        (path, content) ∈ made a mode capture directory disk) ∧
      (∀ f ∈ made a mode capture directory disk, ∃ l, disk.resolve f.1 = .ok l ∧
        disk.IsInside directory l) ∧
      ∀ l, after.find? l ≠ disk.find? l → disk.IsInside directory l ∧
        ∃ content executable, after.find? l = some (.file content executable) := by
  constructor
  · intro o ho c p
    obtain ⟨name, hname, hpath⟩ := Output.exists_entryName ho c p
    exact ⟨name, hname, hpath.trans (Path.join_eq_append directory hname.single)⟩
  · intro a mode statistics disk after
    have hwrote := run_made a mode capture directory statistics disk
    refine ⟨run_sameTree a mode capture directory statistics disk, hwrote, ?_, ?_⟩
    · intro f hf
      obtain ⟨l, hl, -⟩ := hwrote.holds f.1 f.2 hf
      exact ⟨l, hl, isInside_of_mem_made hf hl⟩
    · intro l hchanged
      obtain ⟨path, content, hmade, hl⟩ : ∃ path content,
          (path, content) ∈ made a mode capture directory disk ∧ disk.resolve path = .ok l := by
        by_contra hnone
        push Not at hnone
        exact hchanged (hwrote.keeps l hnone)
      obtain ⟨l', hl', -, hfile⟩ := hwrote.holds path content hmade
      obtain rfl : l' = l := Except.ok.inj (hl'.symm.trans hl)
      exact ⟨isInside_of_mem_made hmade hl, content, _, hfile⟩

/-- The path of the capture goes up twice and ends in a slash and a dot; its
final name begins with two dots and ends in a byte that is no text. -/
theorem packets_directly_inside_of_dots :
    let a : Analyzer :=
      ⟨fun _ => .ok "", fun _ _ => .ok "", fun _ => .ok [⟨some "0", some "aa"⟩]⟩
    let capture : Path := ofString "../../.." ++ 0xFF :: ofString "/."
    let directory : Path := ofString "out/"
    let disk : Disk := ⟨[([ofString "out"], .directory)], []⟩
    let after := (run a .fields capture directory .zero disk).progress.disk
    let file : Location := [ofString "out", ofString "..\uFFFD-conv-0-packet-0.dat"]
    (∃ name, Path.IsEntryName name ∧
      Output.packetPath ⟨directory, "..\uFFFD"⟩ 0 0 = directory ++ directory.separator ++ name) ∧
    after.find? file ≠ disk.find? file ∧ disk.IsInside directory file := by
  intro a capture directory disk after file
  obtain ⟨hpaths, hruns⟩ := packets_directly_inside capture directory
  have ho : Output.ofCapture capture directory = .ok ⟨directory, "..\uFFFD"⟩ := by
    decide +kernel
  have hchanged : after.find? file ≠ disk.find? file := by decide +kernel
  obtain ⟨-, -, -, hinside⟩ := hruns a .fields .zero disk
  exact ⟨hpaths _ ho 0 0, hchanged, (hinside file hchanged).1⟩

end Extraction
end CaptureSplit
