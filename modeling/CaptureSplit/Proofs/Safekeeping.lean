/-
CaptureSplit.Proofs.Safekeeping — a run leaves its own capture alone.

The name of a packet's file is longer than the final name of the capture's
path, be this name text or not: reading it as text makes its bytes no fewer
(`Text.Utf8.length_le_ofString_toStringLossy`), and a suffix stands behind it.
So the two names differ (`Output.fileName?_packetPath_ne`).

A path that leads to a file leads there by its final name
(`Disk.exists_eq_append_of_fileName?`). Where the capture is a file, no packet
is therefore made in its place, in whichever directory the packets go; and
where it is a directory, a run leaves all directories as they are.
-/
import CaptureSplit.Proofs.Placement

namespace CaptureSplit

open CaptureSplit.Text.Utf8 (ofString toStringLossy)

/-! ## Final names -/

namespace Path

/-- A part that is neither empty nor a dot is not left out at the end. -/
theorem getLast?_names {p : Path} {front : List Name} {last : Name}
    (hparts : p.parts = front ++ [last]) (hlast : last ≠ [] ∧ last ≠ here) :
    p.names.getLast? = some last := by
  have hkept : [last].filter (fun name => name ≠ [] ∧ name ≠ here) = [last] :=
    List.filter_eq_self.mpr (by simpa using hlast)
  rw [names, hparts, List.filter_append, hkept, List.getLast?_concat]

theorem fileName?_eq_of_parts {p : Path} {front : List Name} {last : Name}
    (hparts : p.parts = front ++ [last]) (hlast : last ≠ [] ∧ last ≠ here)
    (habove : last ≠ above) : p.fileName? = some last := by
  simp only [fileName?, getLast?_names hparts hlast, if_neg habove]

theorem fileName?_join (directory : Path) {name : Name} (h : IsEntryName name) :
    (directory.join name).fileName? = some name :=
  fileName?_eq_of_parts (parts_join directory h.single) ⟨h.nonempty, h.not_here⟩ h.not_above

end Path

namespace Disk

/-- Where no directory is, a path leads by its final name. -/
theorem exists_eq_append_of_fileName? {d : Disk} {p : Path} {name : Name} {l : Location}
    (hname : p.fileName? = some name) (h : d.resolve p = .ok l)
    (hfile : d.find? l ≠ some .directory) : ∃ here, l = here ++ [name] := by
  obtain ⟨-, -, -, hwalk⟩ := resolve_eq_ok_iff.mp h
  obtain ⟨front, last, hparts⟩ : ∃ front last, p.parts = front ++ [last] :=
    ⟨_, _, (List.dropLast_append_getLast (List.splitOn_ne_nil Path.slash p)).symm⟩
  rw [hparts, walk_append] at hwalk
  cases hhere : d.walk (d.origin p) front with
  | error e => simp [hhere, Except.bind] at hwalk
  | ok here =>
    have henter : d.enter here last = .ok l := by simpa [hhere, Except.bind] using hwalk
    have hdirectory := directory_of_enter henter
    -- an empty name and a dot lead from a directory to itself
    have hlast : last ≠ [] ∧ last ≠ Path.here := by
      by_contra hnot
      have hstay : last = [] ∨ last = Path.here := by tauto
      simp only [enter, hdirectory, if_pos hstay] at henter
      obtain rfl := Except.ok.inj henter
      exact hfile hdirectory
    have habove : last ≠ Path.above := by
      rintro rfl
      simp [Path.fileName?, Path.getLast?_names hparts hlast] at hname
    obtain rfl := Option.some.inj
      (hname.symm.trans (Path.fileName?_eq_of_parts hparts hlast habove))
    exact ⟨here, enter_eq_append hlast.1 hlast.2 habove henter⟩

end Disk

/-! ## The names of packets -/

namespace Output

theorem length_lt_packetFileName (name : Name) (c p : Nat) :
    name.length < (ofString (packetFileName (toStringLossy name) c p)).length := by
  have hname := Text.Utf8.length_le_ofString_toStringLossy name
  have hsuffix := four_le_length_packetSuffix c p
  rw [ofString_packetFileName, List.length_append]
  omega

/-- A packet is not called as the capture is. -/
theorem fileName?_packetPath_ne {capture directory : Path} {o : Output}
    (ho : ofCapture capture directory = .ok o) (c p : Nat) : ∃ name name',
      capture.fileName? = some name ∧ (o.packetPath c p).fileName? = some name' ∧ name ≠ name' := by
  obtain ⟨name, hname, rfl⟩ := exists_of_ofCapture ho
  have hslash := slash_notMem_toStringLossy (Path.slash_notMem_of_fileName? hname)
  have hentry := Path.isEntryName_packetFileName hslash c p
  have hlength := length_lt_packetFileName name c p
  refine ⟨name, _, hname, Path.fileName?_join directory hentry, ?_⟩
  intro heq
  rw [← heq] at hlength
  exact Nat.lt_irrefl _ hlength

/-- No packet is at the place of a capture that is no directory. -/
theorem resolve_packetPath_ne {capture directory : Path} {o : Output}
    (ho : ofCapture capture directory = .ok o) {d : Disk} {l : Location}
    (hl : d.resolve capture = .ok l) (hfile : d.find? l ≠ some .directory) (c p : Nat) :
    d.resolve (o.packetPath c p) ≠ .ok l := by
  intro hpacket
  obtain ⟨name, name', hname, hname', hne⟩ := fileName?_packetPath_ne ho c p
  obtain ⟨here, rfl⟩ := Disk.exists_eq_append_of_fileName? hname hl hfile
  obtain ⟨here', heq⟩ := Disk.exists_eq_append_of_fileName? hname' hpacket hfile
  exact hne (List.append_inj_right' heq rfl |> List.singleton_inj.mp)

end Output

namespace Extraction

theorem find?_run_of_capture {a : Analyzer} {mode : Mode} {capture directory : Path}
    {statistics : Statistics} {disk : Disk} {l : Location} (hl : disk.resolve capture = .ok l)
    (hfile : disk.find? l ≠ some .directory) :
    (run a mode capture directory statistics disk).progress.disk.find? l = disk.find? l := by
  refine (run_made a mode capture directory statistics disk).keeps l ?_
  intro path content hmade
  cases ho : Output.ofCapture capture directory with
  | error e => simp [made, filesOf, ho] at hmade
  | ok o =>
    obtain ⟨c, p, hpath⟩ := made_ofPackets a mode disk ho _ hmade
    obtain rfl : path = _ := hpath
    exact Output.resolve_packetPath_ne ho hl hfile c p

/-- The final name of a packet's path is there and is not that of the capture's
path, whatever bytes that one has and wherever the packets go. What the path of
the capture leads to, a file with its content or a directory, it leads to after
any run over the capture, in either mode and however the run ends. -/
theorem capture_kept (capture directory : Path) :
    (∀ o, Output.ofCapture capture directory = .ok o → ∀ c p, ∃ name name',
      capture.fileName? = some name ∧ (o.packetPath c p).fileName? = some name' ∧ name ≠ name') ∧
    ∀ (a : Analyzer) (mode : Mode) (statistics : Statistics) (disk : Disk) (entry : Entry),
      disk.lookUp capture = .ok entry →
        (run a mode capture directory statistics disk).progress.disk.lookUp capture = .ok entry := by
  refine ⟨fun o ho c p => Output.fileName?_packetPath_ne ho c p, ?_⟩
  intro a mode statistics disk entry hentry
  have htree := run_sameTree a mode capture directory statistics disk
  rw [Disk.lookUp] at hentry ⊢
  cases hl : disk.resolve capture with
  | error e => simp [hl] at hentry
  | ok l =>
    have hfound : disk.find? l = some entry := by
      cases hfind : disk.find? l <;> simp_all
    have hkept : (run a mode capture directory statistics disk).progress.disk.find? l =
        some entry := by
      by_cases hdirectory : entry = .directory
      · rw [hdirectory] at hfound ⊢
        exact (htree.directory l).mpr hfound
      · have hfile : disk.find? l ≠ some .directory := by simpa [hfound] using hdirectory
        rw [find?_run_of_capture hl hfile, hfound]
    simp only [htree.resolve_eq_ok hl, hkept]

/-- The packets go into the directory of the capture, which is called by a byte
that is no text and a letter. The first is written, and the second row of the
dump breaks the run off. -/
theorem capture_kept_of_unreadable_name :
    let table := "=\nUDP Conversations\nFilter:\n|\n|\na\nb\n=\n"
    let first := "\n=\nFollow: udp,raw\nFilter:\nNode 0:\nNode 1:\n0a\n=\n"
    let second := "\n=\nFollow: udp,raw\nFilter:\nNode 0:\nNode 1:\nxyz\n=\n"
    let a : Analyzer := ⟨fun _ => .ok table,
      fun _ i => .ok (if i = 0 then first else second), fun _ => .ok []⟩
    let name : Name := [0xFF, 0x61]
    let capture : Path := ofString "in/" ++ name
    let disk : Disk := ⟨[([ofString "in"], .directory),
      ([ofString "in", name], .file [1, 2, 3] false)], []⟩
    let o : Output := ⟨ofString "in", "\uFFFDa"⟩
    let r := run a .report capture (ofString "in") .zero disk
    (∃ name', (o.packetPath 0 0).fileName? = some name' ∧ name ≠ name') ∧
      r.failure ≠ none ∧ r.progress.disk.lookUp (o.packetPath 0 0) = .ok (.file [0x0A] false) ∧
      r.progress.disk.lookUp capture = .ok (.file [1, 2, 3] false) := by
  intro table first second a name capture disk o r
  obtain ⟨hnames, hkept⟩ := capture_kept capture (ofString "in")
  have ho : Output.ofCapture capture (ofString "in") = .ok o := by decide +kernel
  have hname : capture.fileName? = some name := by decide +kernel
  have hentry : disk.lookUp capture = .ok (.file [1, 2, 3] false) := by decide +kernel
  have hbroken : r.failure ≠ none ∧
      r.progress.disk.lookUp (o.packetPath 0 0) = .ok (.file [0x0A] false) := by decide +kernel
  obtain ⟨name₀, name', hname₀, hname', hne⟩ := hnames o ho 0 0
  obtain rfl := Option.some.inj (hname.symm.trans hname₀)
  exact ⟨⟨name', hname', hne⟩, hbroken.1, hbroken.2, hkept a .report .zero disk _ hentry⟩

end Extraction
end CaptureSplit
