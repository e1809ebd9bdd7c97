/-
CaptureSplit.Proofs.Captures — the packets of several captures in one directory.

The packets of two captures that are called differently have different paths
in one directory, and lead to different places (`resolve_packetPath_apart`).
A run makes the files that it sets out to make up to the first that cannot be
made, and no others (`run_made`); so runs over such captures leave each
other's files alone, whichever comes first.

What a capture is called is its final name read as text. Names that are text
differ as their bytes do. Of a name that is none, the ill-formed bytes are
lost, so two names that differ in these only are the same to an output, and
the packets of one capture replace those of the other
(`packets_of_unreadable_names_replaced`).
-/
import CaptureSplit.Proofs.Decoding
import CaptureSplit.Proofs.Directories
import CaptureSplit.Proofs.Reruns
import CaptureSplit.Proofs.Runs

namespace CaptureSplit

open CaptureSplit.Text.Utf8 (ofString toString? toStringLossy)

/-! ## What a capture is called -/

theorem Path.slash_notMem_of_fileName? {p : Path} {name : Name} (h : p.fileName? = some name) :
    slash ∉ name := by
  have hmem : name ∈ p.names := by
    rw [fileName?] at h
    split at h
    · next last hlast =>
      split at h
      · cases h
      · rw [← Option.some.inj h]
        exact List.mem_of_getLast? hlast
    · cases h
  exact Splitting.notMem_of_mem_splitOn (List.mem_filter.mp hmem).1

namespace Output

/-- The names of packets stand in the directory itself. -/
theorem slash_notMem_packetFileName {captureName : String}
    (h : Path.slash ∉ ofString captureName) (c p : Nat) :
    Path.slash ∉ ofString (packetFileName captureName c p) := by
  rw [ofString_packetFileName, List.mem_append]
  exact not_or.mpr ⟨h, slash_notMem_packetSuffix c p⟩

theorem slash_notMem_toStringLossy {name : Name} (h : Path.slash ∉ name) :
    Path.slash ∉ ofString (toStringLossy name) := by
  intro hmem
  rw [toStringLossy, ofString, String.toList_ofList, Text.Utf8.mem_encode_iff (by decide)] at hmem
  exact h (Text.Utf8.mem_of_mem_decodeLossy (by decide) hmem)

theorem packetPath_eq_iff {directory : Path} {a b : String} {c p c' p' : Nat}
    (ha : Path.slash ∉ ofString a) (hb : Path.slash ∉ ofString b) :
    packetPath ⟨directory, a⟩ c p = packetPath ⟨directory, b⟩ c' p' ↔ a = b ∧ c = c' ∧ p = p' := by
  constructor
  · intro h
    have hname := Path.join_inj (slash_notMem_packetFileName ha c p)
      (slash_notMem_packetFileName hb c' p') h
    exact packetFileName_inj (Text.Utf8.ofString_injective hname)
  · rintro ⟨rfl, rfl, rfl⟩
    rfl

end Output

/-- Packets of captures that are called differently are at different places. -/
theorem Disk.resolve_packetPath_apart {d : Disk} {directory : Path} {a b : String} {c p c' p' : Nat}
    {l : Location} (ha : Path.slash ∉ ofString a) (hb : Path.slash ∉ ofString b) (hne : a ≠ b)
    (h : d.resolve (Output.packetPath ⟨directory, a⟩ c p) = .ok l) :
    d.resolve (Output.packetPath ⟨directory, b⟩ c' p') ≠ .ok l := by
  intro h'
  obtain ⟨here, hhere, hl⟩ :=
    Disk.exists_enter_of_join (Output.slash_notMem_packetFileName ha c p) h
  obtain ⟨here', hhere', hl'⟩ :=
    Disk.exists_enter_of_join (Output.slash_notMem_packetFileName hb c' p') h'
  obtain rfl : here = here' := Except.ok.inj (hhere.symm.trans hhere')
  have hlong := two_lt_length_packetFileName a c p
  have hlong' := two_lt_length_packetFileName b c' p'
  have heq := (enter_eq_of_long hlong hl).symm.trans (enter_eq_of_long hlong' hl')
  have hname := List.singleton_inj.mp (List.append_cancel_left heq)
  exact hne (packetFileName_inj (Text.Utf8.ofString_injective hname)).1

/-! ## The files that are made -/

/-- The disk has a file with this content at the path. -/
def Disk.Holds (d : Disk) (path : Path) (content : Bytes) : Prop :=
  ∃ executable, d.lookUp path = .ok (.file content executable)

theorem Disk.holds_iff {d : Disk} {path : Path} {content : Bytes} :
    d.Holds path content ↔
      ∃ l executable, d.resolve path = .ok l ∧ d.find? l = some (.file content executable) := by
  simp only [Holds, lookUp]
  cases d.resolve path with
  | error e => simp
  | ok l => cases h : d.find? l <;> simp [h]

/-- Packets are made up to the first that cannot be made. -/
theorem Output.wrote_takeWhile {o : Output} {files : List (Path × Bytes)}
    (hfiles : o.OfPackets files) (hdistinct : files.Pairwise o.Distinct) (d : Disk) :
    d.Wrote (d.createAll files).2 fun path content =>
      (path, content) ∈ files.takeWhile fun f => d.IsCreatable f.1 := by
  have hapart : files.Pairwise d.Apart := hdistinct.imp fun h => h.apart d
  cases hfind : files.find? fun f => ¬ d.IsCreatable f.1 with
  | none =>
    have hall : ∀ f ∈ files, d.IsCreatable f.1 := by simpa using hfind
    obtain ⟨after, hafter, -, hwrote⟩ := Disk.createAll_wrote hapart hall
    rw [List.takeWhile_eq_self_iff.mpr (by simpa using hall), hafter]
    exact hwrote
  | some f =>
    obtain ⟨hf, front, back, rfl, hfront⟩ := List.find?_eq_some_iff_append.mp hfind
    have hcan : ∀ g ∈ front, d.IsCreatable g.1 := by simpa using hfront
    have hnot : ¬ d.IsCreatable f.1 := by simpa using hf
    obtain ⟨path, content⟩ := f
    obtain ⟨c, p, rfl⟩ := hfiles (path, content) (by simp)
    obtain ⟨cause, hcause⟩ := (Disk.not_isCreatable_iff content).mp hnot
    obtain ⟨after, hafter, hwrote⟩ := @createAll_stopped o d front back c p content cause
      (fun g hg => hfiles g (List.mem_append_left _ hg)) (List.pairwise_append.mp hapart).1 hcan
      hcause
    rw [List.takeWhile_append_of_pos (by simpa using hcan), hafter]
    simpa [hnot] using hwrote

namespace Extraction

/-- The files that a run makes: those that it sets out to make, up to the first
that cannot be made. -/
def made (a : Analyzer) (mode : Mode) (capture directory : Path) (disk : Disk) :
    List (Path × Bytes) :=
  (filesOf a mode capture directory).takeWhile fun f => disk.IsCreatable f.1

theorem filesOf_ofPackets (a : Analyzer) (mode : Mode) {capture directory : Path} {o : Output}
    (ho : Output.ofCapture capture directory = .ok o) :
    o.OfPackets (filesOf a mode capture directory) := by
  rw [filesOf, ho]
  exact o.ofPackets_flatMap_files _

theorem made_ofPackets (a : Analyzer) (mode : Mode) {capture directory : Path} {o : Output}
    (disk : Disk) (ho : Output.ofCapture capture directory = .ok o) :
    o.OfPackets (made a mode capture directory disk) := fun f hf =>
  filesOf_ofPackets a mode ho f ((List.takeWhile_sublist _).subset hf)

/-- A run makes these files and leaves all else as it was. -/
theorem run_made (a : Analyzer) (mode : Mode) (capture directory : Path) (statistics : Statistics)
    (disk : Disk) :
    disk.Wrote (run a mode capture directory statistics disk).progress.disk fun path content =>
      (path, content) ∈ made a mode capture directory disk := by
  rw [run_disk_filesOf]
  cases ho : Output.ofCapture capture directory with
  | ok o =>
    exact Output.wrote_takeWhile (filesOf_ofPackets a mode ho) (filesOf_distinct a mode ho) disk
  | error e =>
    have hnone : filesOf a mode capture directory = [] := by rw [filesOf, ho]
    rw [made, hnone]
    exact ⟨rfl, fun _ _ h => absurd h List.not_mem_nil, fun _ _ => rfl⟩

/-- A run that goes through makes all that it sets out to make. -/
theorem made_eq_filesOf {a : Analyzer} {mode : Mode} {capture directory : Path}
    {statistics : Statistics} {disk : Disk}
    (hok : (run a mode capture directory statistics disk).failure = none) :
    made a mode capture directory disk = filesOf a mode capture directory := by
  obtain ⟨o, cs, ho, hintake, hall⟩ := run_failure_eq_none_iff.mp hok
  refine List.takeWhile_eq_self_iff.mpr ?_
  simp only [filesOf, ho, hintake, decide_eq_true_eq]
  intro f hf
  obtain ⟨c, hc, hf⟩ := List.mem_flatMap.mp hf
  exact (hall c hc).isCreatable f hf

theorem holds_made (a : Analyzer) (mode : Mode) (capture directory : Path)
    (statistics : Statistics) (disk : Disk) :
    ∀ f ∈ made a mode capture directory disk,
      (run a mode capture directory statistics disk).progress.disk.Holds f.1 f.2 := by
  intro f hf
  obtain ⟨l, -, hl, hfind⟩ := (run_made a mode capture directory statistics disk).holds f.1 f.2 hf
  exact Disk.holds_iff.mpr ⟨l, _, hl, hfind⟩

/-- What is held at the path of a packet is still held there after a run over a
capture that is called differently. -/
theorem holds_of_run (a : Analyzer) (mode : Mode) {capture directory : Path} {o : Output}
    (statistics : Statistics) {disk : Disk} (ho : Output.ofCapture capture directory = .ok o)
    {captureName : String} (hname : Path.slash ∉ ofString captureName)
    (hne : captureName ≠ o.captureName) {path : Path} {content : Bytes}
    (hpath : ∃ c p, path = Output.packetPath ⟨directory, captureName⟩ c p)
    (h : disk.Holds path content) :
    (run a mode capture directory statistics disk).progress.disk.Holds path content := by
  obtain ⟨c, p, rfl⟩ := hpath
  obtain ⟨name, hfinal, rfl⟩ := Output.exists_of_ofCapture ho
  obtain ⟨l, executable, hl, hfind⟩ := Disk.holds_iff.mp h
  have htree := (run_samePlaces a mode statistics disk ho).tree
  refine Disk.holds_iff.mpr ⟨l, executable, htree.resolve_eq_ok hl, ?_⟩
  rw [(run_made a mode capture directory statistics disk).keeps l, hfind]
  intro path' content' hmade hl'
  obtain ⟨c', p', hpath⟩ := made_ofPackets a mode disk ho _ hmade
  obtain rfl : path' = _ := hpath
  exact Disk.resolve_packetPath_apart hname
    (Output.slash_notMem_toStringLossy (Path.slash_notMem_of_fileName? hfinal)) hne hl hl'

/-- Two captures in one directory. Their packets have the same path if the
captures' names are the same text and the packets' numbers the same, and not
otherwise; names that are text themselves are the same text only if they are
the same. Where the texts differ, then after a run over each capture, with
whatever answers and however it ends, all files that the two have made are
there; a run that goes through has made all of its files. -/
theorem packets_of_captures_apart {capture capture' : Path} {name name' : Name}
    (directory : Path) (hname : capture.fileName? = some name)
    (hname' : capture'.fileName? = some name') :
    ∃ o o', Output.ofCapture capture directory = .ok o ∧
      Output.ofCapture capture' directory = .ok o' ∧
      (∀ c p c' p', o.packetPath c p = o'.packetPath c' p' ↔
        toStringLossy name = toStringLossy name' ∧ c = c' ∧ p = p') ∧
      (∀ text text', toString? name = some text → toString? name' = some text' → name ≠ name' →
        toStringLossy name ≠ toStringLossy name') ∧
      (toStringLossy name ≠ toStringLossy name' →
        ∀ (a a' : Analyzer) (mode mode' : Mode) (t t' : Statistics) (disk : Disk),
          let first := run a mode capture directory t disk
          let second := run a' mode' capture' directory t' first.progress.disk
          (∀ f ∈ made a mode capture directory disk ++
              made a' mode' capture' directory first.progress.disk,
            second.progress.disk.Holds f.1 f.2) ∧
          (first.failure = none →
            made a mode capture directory disk = filesOf a mode capture directory) ∧
          (second.failure = none →
            made a' mode' capture' directory first.progress.disk =
              filesOf a' mode' capture' directory)) := by
  have ho := Output.ofCapture_eq hname directory
  have ho' := Output.ofCapture_eq hname' directory
  have hslash := Output.slash_notMem_toStringLossy (Path.slash_notMem_of_fileName? hname)
  have hslash' := Output.slash_notMem_toStringLossy (Path.slash_notMem_of_fileName? hname')
  refine ⟨_, _, ho, ho', fun c p c' p' => Output.packetPath_eq_iff hslash hslash', ?_, ?_⟩
  · intro text text' htext htext' hne heq
    rw [Text.Utf8.toStringLossy_of_toString? htext,
      Text.Utf8.toStringLossy_of_toString? htext'] at heq
    subst heq
    exact hne ((Text.Utf8.ofString_of_toString? htext).symm.trans
      (Text.Utf8.ofString_of_toString? htext'))
  · intro hne a a' mode mode' t t' disk first second
    refine ⟨?_, made_eq_filesOf, made_eq_filesOf⟩
    intro f hf
    rcases List.mem_append.mp hf with hf | hf
    · have hmade := holds_made a mode capture directory t disk f hf
      exact holds_of_run a' mode' t' ho' hslash hne (made_ofPackets a mode disk ho f hf) hmade
    · exact holds_made a' mode' capture' directory t' _ f hf

/-- The second capture is called like the packet of the first. -/
theorem packets_of_captures_apart_of_packet_name :
    let a : Analyzer :=
      ⟨fun _ => .ok "", fun _ _ => .ok "", fun _ => .ok [⟨some "0", some "aa"⟩]⟩
    let a' : Analyzer :=
      ⟨fun _ => .ok "", fun _ _ => .ok "", fun _ => .ok [⟨some "0", some "bb"⟩]⟩
    let capture := ofString "a.pcap"
    let capture' := ofString "a.pcap-conv-0-packet-0.dat"
    let first := run a .fields capture [] .zero ⟨[], []⟩
    let second := run a' .fields capture' [] .zero first.progress.disk
    first.failure = none ∧ second.failure = none ∧
      second.progress.disk.Holds (ofString "a.pcap-conv-0-packet-0.dat") [0xAA] ∧
      second.progress.disk.Holds (ofString "a.pcap-conv-0-packet-0.dat-conv-0-packet-0.dat")
        [0xBB] := by
  intro a a' capture capture' first second
  have hname : Path.fileName? capture = some capture := by decide +kernel
  have hname' : Path.fileName? capture' = some capture' := by decide +kernel
  have hne : toStringLossy capture ≠ toStringLossy capture' := by decide +kernel
  have hok : first.failure = none ∧ second.failure = none := by decide +kernel
  obtain ⟨_, _, -, -, -, -, hruns⟩ := packets_of_captures_apart [] hname hname'
  obtain ⟨hholds, hall, hall'⟩ := hruns hne a a' .fields .fields .zero .zero ⟨[], []⟩
  have hfiles : filesOf a .fields capture [] = [(ofString "a.pcap-conv-0-packet-0.dat", [0xAA])] := by
    decide +kernel
  have hfiles' : filesOf a' .fields capture' [] =
      [(ofString "a.pcap-conv-0-packet-0.dat-conv-0-packet-0.dat", [0xBB])] := by
    decide +kernel
  rw [hall hok.1, hall' hok.2, hfiles, hfiles'] at hholds
  have hfirst := hholds _ (List.mem_append_left _ (List.mem_singleton_self _))
  have hsecond := hholds _ (List.mem_append_right _ (List.mem_singleton_self _))
  exact ⟨hok.1, hok.2, hfirst, hsecond⟩

/-- Two names that are no text and differ in their ill-formed byte only, each of a
capture with one conversation of one packet. The second run replaces the packet of
the first. -/
theorem packets_of_unreadable_names_replaced :
    let table := "\n\n\n\n\n\n\n"
    let a : Analyzer :=
      ⟨fun _ => .ok table, fun _ _ => .ok "\n\n\n\n\n\naa\n\n", fun _ => .ok []⟩
    let a' : Analyzer :=
      ⟨fun _ => .ok table, fun _ _ => .ok "\n\n\n\n\n\nbb\n\n", fun _ => .ok []⟩
    let capture : Path := 0xFF :: ofString "x.pcap"
    let capture' : Path := 0xFE :: ofString "x.pcap"
    let directory := ofString "out"
    let first := run a .report capture directory .zero ⟨[([directory], .directory)], []⟩
    let second := run a' .report capture' directory .zero first.progress.disk
    capture.fileName? = some capture ∧ capture'.fileName? = some capture' ∧ capture ≠ capture' ∧
      first.failure = none ∧ second.failure = none ∧
      ∃ path, filesOf a .report capture directory = [(path, [0xAA])] ∧
        filesOf a' .report capture' directory = [(path, [0xBB])] ∧
        second.progress.disk.lookUp path = .ok (.file [0xBB] false) := by
  intro table a a' capture capture' directory first second
  refine ⟨by decide +kernel, by decide +kernel, by decide +kernel, by decide +kernel,
    by decide +kernel, Output.packetPath ⟨directory, "\uFFFDx.pcap"⟩ 0 0, ?_⟩
  refine ⟨by decide +kernel, by decide +kernel, by decide +kernel⟩

end Extraction
end CaptureSplit
