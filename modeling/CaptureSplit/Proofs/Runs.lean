/-
CaptureSplit.Proofs.Runs — what a run leaves on the disk.

`filesOf` lists the files that a run makes, each a path and its content, in
the order in which they are made. No two of them have one path, whatever
the analyzer answers and however the capture is called.

A run that gets all its conversations and can make their files succeeds and
leaves these files and nothing else (`run_wrote`). For the two modes this
comes to files in the given directory, under the capture's final name as text:

* by fields, a file for each complete entry, with the index of its stream
  and the number of complete entries of that index before it (`EntryFile`);
* by reports, a file for each row of each dump, with the number of the
  dump and the number of the row, where each dump is asked for once and in
  order (`RowFile`).
-/
import CaptureSplit.Proofs.Intake

namespace CaptureSplit

namespace Extraction

open CaptureSplit.Text.Utf8 (ofString toStringLossy)

/-! ## Files of a run -/

/-- The files that a run sets out to make. -/
def filesOf (a : Analyzer) (mode : Mode) (capture directory : Path) : List (Path × Bytes) :=
  match Output.ofCapture capture directory with
  | .error _ => []
  | .ok o => (intake a mode capture).1.flatMap o.files

theorem run_disk_filesOf (a : Analyzer) (mode : Mode) (capture directory : Path)
    (statistics : Statistics) (disk : Disk) :
    (run a mode capture directory statistics disk).progress.disk =
      (disk.createAll (filesOf a mode capture directory)).2 := by
  cases ho : Output.ofCapture capture directory with
  | error e =>
    rw [run, filesOf, ho]
    rfl
  | ok o =>
    rw [run_disk a mode statistics disk ho, filesOf, ho]

theorem filesOf_distinct (a : Analyzer) (mode : Mode) {capture directory : Path} {o : Output}
    (ho : Output.ofCapture capture directory = .ok o) :
    (filesOf a mode capture directory).Pairwise o.Distinct := by
  rw [filesOf, ho]
  exact o.flatMap_files_distinct (intake_distinct a mode capture)

/-- Names of packets differ in all that they are made of. What a run does to
the disk is to make files one after the other, at paths that are all
different and lead to different places. -/
theorem packet_files_unique :
    (∀ a b c p c' p', packetFileName a c p = packetFileName b c' p' →
      a = b ∧ c = c' ∧ p = p') ∧
    ∀ (a : Analyzer) (mode : Mode) (capture directory : Path) (statistics : Statistics)
      (disk : Disk),
      (run a mode capture directory statistics disk).progress.disk =
          (disk.createAll (filesOf a mode capture directory)).2 ∧
        ((filesOf a mode capture directory).map Prod.fst).Nodup ∧
        (filesOf a mode capture directory).Pairwise disk.Apart := by
  refine ⟨fun _ _ _ _ _ _ => packetFileName_inj, fun a mode capture directory statistics disk =>
    ⟨run_disk_filesOf a mode capture directory statistics disk, ?_⟩⟩
  cases ho : Output.ofCapture capture directory with
  | error e =>
    have hnone : filesOf a mode capture directory = [] := by rw [filesOf, ho]
    rw [hnone]
    exact ⟨List.nodup_nil, List.Pairwise.nil⟩
  | ok o =>
    have hdistinct := filesOf_distinct a mode ho
    refine ⟨?_, hdistinct.imp fun h => h.apart disk⟩
    rw [List.nodup_iff_pairwise_ne, List.pairwise_map]
    exact hdistinct.imp Output.Distinct.ne

/-- A capture may be called like a packet of another one. -/
theorem packet_files_unique_of_packet_name :
    packetFileName "a.pcap-conv-1-packet-2.dat" 3 4 =
        packetFileName (packetFileName "a.pcap" 1 2) 3 4 ∧
      "a.pcap-conv-1-packet-2.dat" = packetFileName "a.pcap" 1 2 := by
  have hname : packetFileName "a.pcap-conv-1-packet-2.dat" 3 4 =
      packetFileName (packetFileName "a.pcap" 1 2) 3 4 := by decide
  exact ⟨hname, (packet_files_unique.1 _ _ _ _ _ _ hname).1⟩

/-- Where the conversations are had and their files can be made, a run
succeeds and leaves these files. -/
theorem run_wrote {a : Analyzer} {mode : Mode} {capture directory : Path} {o : Output}
    {cs : List Conversation} (statistics : Statistics) {disk : Disk}
    (ho : Output.ofCapture capture directory = .ok o)
    (hcs : intake a mode capture = (cs, none))
    (hcan : ∀ f ∈ cs.flatMap o.files, disk.IsCreatable f.1) :
    let r := run a mode capture directory statistics disk
    r.failure = none ∧
      disk.Wrote r.progress.disk fun path content => (path, content) ∈ cs.flatMap o.files := by
  have hdistinct : (cs.flatMap o.files).Pairwise o.Distinct := by
    have := intake_distinct a mode capture
    rw [hcs] at this
    exact o.flatMap_files_distinct this
  obtain ⟨after, hall, -, hwrote⟩ :=
    Disk.createAll_wrote (hdistinct.imp fun h => h.apart disk) hcan
  have hrun : (run a mode capture directory statistics disk).unasked =
      saveAll o cs (.start disk statistics) := by
    rw [run_unasked a mode statistics disk ho, hcs, saveIntake_none]
  have hsaved := saveAll_eq o cs (.start disk statistics)
  rw [← hrun, show (Progress.start disk statistics).disk = disk from rfl, hall] at hsaved
  obtain ⟨hfailure, hdisk⟩ := Prod.mk.inj hsaved
  refine ⟨hfailure, ?_⟩
  rw [show (run a mode capture directory statistics disk).progress.disk = after from hdisk]
  exact hwrote

/-! ## By fields -/

/-- The file in a directory for the complete entry at a position: its packet, under
the capture's name as text, the entry's index and the number of complete entries of
this index before it. -/
def EntryFile (directory : Path) (name : Name) (entries : List Dissection.Entry) (position : Nat)
    (path : Path) (content : Bytes) : Prop :=
  ∃ e i, entries[position]? = some e ∧ e.Reads i content ∧
    path = directory.join (ofString (toStringLossy name ++ "-conv-" ++ toString i ++
      "-packet-" ++ toString (Dissection.earlier entries position i) ++ ".dat"))

/-- Complete entries at different positions have different files. -/
theorem EntryFile.distinct {directory : Path} {name : Name} {entries : List Dissection.Entry}
    {k k' : Nat} {path path' : Path} {content content' : Bytes}
    (h : EntryFile directory name entries k path content)
    (h' : EntryFile directory name entries k' path' content') (hne : k ≠ k') :
    Output.Distinct ⟨directory, toStringLossy name⟩ (path, content) (path', content') := by
  obtain ⟨e, i, he, hreads, hpath⟩ := h
  obtain ⟨e', i', he', hreads', hpath'⟩ := h'
  refine ⟨_, _, _, _, hpath, hpath', ?_⟩
  rintro ⟨rfl, hearlier⟩
  exact hne (Dissection.eq_of_earlier_eq he (Dissection.index?_of_reads hreads) he'
    (Dissection.index?_of_reads hreads') hearlier)

/-- The files of what has been gathered are those of the complete entries. -/
theorem mem_files_of_group_iff {entries : List Dissection.Entry} {cs : List Conversation}
    (hvalid : ∀ e ∈ entries, e.IsComplete → ∃ i packet, e.Reads i packet)
    (hcs : Dissection.group entries = .ok cs) (directory : Path) (name : Name) {path : Path}
    {content : Bytes} :
    (path, content) ∈ cs.flatMap (Output.files ⟨directory, toStringLossy name⟩) ↔
      ∃ k, EntryFile directory name entries k path content := by
  have hord := (Dissection.group_eq_ok hcs).1
  rw [List.mem_flatMap]
  constructor
  · rintro ⟨c, hc, hmem⟩
    obtain ⟨n, hn, rfl⟩ := Output.mem_files_iff.mp hmem
    rw [← Buffers.packetsOf_of_mem hord hc] at hn
    obtain ⟨k, e, he, hreads, rfl⟩ := (Dissection.getElem?_packetsOf_iff hvalid hcs).mp hn
    exact ⟨k, e, c.index, he, hreads, rfl⟩
  · rintro ⟨k, e, i, he, hreads, rfl⟩
    have hn := (Dissection.getElem?_packetsOf_iff hvalid hcs).mpr ⟨k, e, he, hreads, rfl⟩
    have hne : Buffers.packetsOf i cs ≠ [] := by
      intro hnil
      simp [hnil] at hn
    obtain ⟨c, hc, rfl, hpackets⟩ := Buffers.exists_mem_of_packetsOf hne
    exact ⟨c, hc, Output.mem_files_iff.mpr ⟨_, hpackets ▸ hn, rfl⟩⟩

/-- By fields, where every complete entry can be read and its file can be
made, a run succeeds and leaves the files of the complete entries, each at a
place of its own. -/
theorem run_fields_wrote {a : Analyzer} {capture : Path} {name : Name} (directory : Path)
    {entries : List Dissection.Entry} (statistics : Statistics) (disk : Disk)
    (hname : capture.fileName? = some name) (hentries : a.udpEntries capture = .ok entries)
    (hvalid : ∀ e ∈ entries, e.IsComplete → ∃ i packet, e.Reads i packet)
    (hcan : ∀ k path content, EntryFile directory name entries k path content →
      disk.IsCreatable path) :
    let r := run a .fields capture directory statistics disk
    r.failure = none ∧
      disk.Wrote r.progress.disk (fun path content =>
        ∃ k, EntryFile directory name entries k path content) ∧
      ∀ k k' path path' content content', EntryFile directory name entries k path content →
        EntryFile directory name entries k' path' content' → k ≠ k' →
          path ≠ path' ∧ disk.Apart (path, content) (path', content') := by
  obtain ⟨cs, hcs⟩ := Dissection.exists_groupFrom Buffers.empty hvalid
  let o : Output := ⟨directory, toStringLossy name⟩
  have hfiles : ∀ path content, (path, content) ∈ cs.flatMap o.files ↔
      ∃ k, EntryFile directory name entries k path content :=
    fun path content => mem_files_of_group_iff hvalid hcs directory name
  have hintake : intake a .fields capture = (cs, none) := by
    simp only [intake, hentries]
    rw [show Dissection.group entries = .ok cs from hcs]
  have hcan' : ∀ f ∈ cs.flatMap o.files, disk.IsCreatable f.1 := by
    intro f hf
    obtain ⟨k, hk⟩ := (hfiles f.1 f.2).mp hf
    exact hcan k f.1 f.2 hk
  have hrun := run_wrote statistics (Output.ofCapture_eq hname directory) hintake hcan'
  simp only [o, hfiles] at hrun
  refine ⟨hrun.1, hrun.2, ?_⟩
  intro k k' path path' content content' h h' hne
  have hdistinct := h.distinct h' hne
  exact ⟨hdistinct.ne, hdistinct.apart disk⟩

/-- Two packets of one stream, and an entry without an index between them, as a
dissection of `traces/a.pcap` into the directory `out`. -/
theorem run_fields_wrote_two_packets :
    let entries : List Dissection.Entry :=
      [⟨some "7", some "0a:0b"⟩, ⟨none, some "ff"⟩, ⟨some " +07", some "0C"⟩]
    let a : Analyzer := ⟨fun _ => .ok "", fun _ _ => .ok "", fun _ => .ok entries⟩
    let disk : Disk := ⟨[([ofString "out"], .directory)], []⟩
    let files : List (Path × Bytes) :=
      [(ofString "out/a.pcap-conv-7-packet-0.dat", [0x0A, 0x0B]),
        (ofString "out/a.pcap-conv-7-packet-1.dat", [0x0C])]
    let r := run a .fields (ofString "traces/a.pcap") (ofString "out") .zero disk
    r.failure = none ∧ disk.Wrote r.progress.disk fun path content => (path, content) ∈ files := by
  intro entries a disk files r
  have hname : Path.fileName? (ofString "traces/a.pcap") = some (ofString "a.pcap") := by
    decide +kernel
  have hcs : Dissection.group entries = .ok [⟨7, [[0x0A, 0x0B], [0x0C]]⟩] := by decide +kernel
  have hvalid := Dissection.reads_of_groupFrom_eq_ok hcs
  have hlisted : List.flatMap (Output.files ⟨ofString "out", toStringLossy (ofString "a.pcap")⟩)
      [⟨7, [[0x0A, 0x0B], [0x0C]]⟩] = files := by
    decide +kernel
  have hfiles : ∀ path content,
      (∃ k, EntryFile (ofString "out") (ofString "a.pcap") entries k path content) ↔
        (path, content) ∈ files := by
    intro path content
    rw [← hlisted, mem_files_of_group_iff hvalid hcs]
  have hcreatable : ∀ f ∈ files, disk.IsCreatable f.1 := by decide +kernel
  have hrun := run_fields_wrote (a := a) (ofString "out") .zero disk hname rfl hvalid
    fun k path content hfile => hcreatable _ ((hfiles path content).mp ⟨k, hfile⟩)
  simp only [hfiles] at hrun
  exact ⟨hrun.1, hrun.2.1⟩

/-! ## By reports -/

/-- The file in a directory for a row: its packet, under the capture's name as text,
the number of the dump and that of the row. -/
def RowFile (directory : Path) (name : Name) (count : Nat) (dump : Nat → String) (path : Path)
    (content : Bytes) : Prop :=
  ∃ (i j : Nat) (line : String), i < count ∧ (Report.rows .follow (dump i))[j]? = some line ∧
    Packet.Row content line.toList ∧
    path = directory.join (ofString (toStringLossy name ++ "-conv-" ++ toString i ++
      "-packet-" ++ toString j ++ ".dat"))

/-- Where the rows of all dumps can be read, all conversations are had. -/
theorem exists_intake_report {a : Analyzer} {capture : Path} {report : String} {count : Nat}
    {dump : Nat → String} (hreport : a.conversationReport capture = .ok report)
    (hcount : count = Report.rowCount .conversations report)
    (hdump : ∀ i < count, a.followReport capture i = .ok (dump i))
    (hvalid : ∀ i < count, ∀ line ∈ Report.rows .follow (dump i),
      ∃ packet, Packet.Row packet line.toList) :
    ∃ packets : Nat → List Packet,
      (∀ i < count, List.Forall₂ (fun line packet => Packet.Row packet line.toList)
        (Report.rows .follow (dump i)) (packets i)) ∧
      intake a .report capture = ((List.range count).map fun i => ⟨i, packets i⟩, none) := by
  have hpackets : ∀ i, ∃ packets, i < count →
      List.Forall₂ (fun line packet => Packet.Row packet line.toList)
        (Report.rows .follow (dump i)) packets := by
    intro i
    by_cases hi : i < count
    · obtain ⟨packets, h⟩ := Packet.exists_packets_of_rows (hvalid i hi)
      exact ⟨packets, fun _ => h⟩
    · exact ⟨[], fun h => absurd h hi⟩
  choose packets hrows using hpackets
  refine ⟨packets, hrows, ?_⟩
  simp only [intake, hreport, ← hcount]
  refine fetch_eq ?_
  intro i hi
  have hi := List.mem_range.mp hi
  exact ⟨dump i, hdump i hi, Packet.ofLines_eq_ok_iff.mpr (hrows i hi)⟩

/-- The files of the dumps' conversations are those of their rows. -/
theorem mem_files_of_dumps_iff {count : Nat} {dump : Nat → String} {packets : Nat → List Packet}
    (hrows : ∀ i < count, List.Forall₂ (fun line packet => Packet.Row packet line.toList)
      (Report.rows .follow (dump i)) (packets i)) (directory : Path) (name : Name) {path : Path}
    {content : Bytes} :
    (path, content) ∈ ((List.range count).map fun i => ⟨i, packets i⟩).flatMap
        (Output.files ⟨directory, toStringLossy name⟩) ↔
      RowFile directory name count dump path content := by
  simp only [List.mem_flatMap, List.mem_map, List.mem_range]
  constructor
  · rintro ⟨c, ⟨i, hi, rfl⟩, hmem⟩
    obtain ⟨j, hj, rfl⟩ := Output.mem_files_iff.mp hmem
    obtain ⟨line, hline, hrow⟩ := (Packet.getElem?_packets_iff (hrows i hi)).mp hj
    exact ⟨i, j, line, hi, hline, hrow, rfl⟩
  · rintro ⟨i, j, line, hi, hline, hrow, rfl⟩
    have hj := (Packet.getElem?_packets_iff (hrows i hi)).mpr ⟨line, hline, hrow⟩
    exact ⟨⟨i, packets i⟩, ⟨i, hi, rfl⟩, Output.mem_files_iff.mpr ⟨j, hj, rfl⟩⟩

theorem run_report_queries {a : Analyzer} {capture directory : Path} {report : String}
    {statistics : Statistics} {disk : Disk}
    (hreport : a.conversationReport capture = .ok report)
    (hok : (run a .report capture directory statistics disk).failure = none) :
    (run a .report capture directory statistics disk).progress.queries =
      Query.conversations capture ::
        (List.range (Report.rowCount .conversations report)).map (Query.follow capture) := by
  rw [run] at hok ⊢
  split at hok
  · cases hok
  · simp only [byReports, hreport] at hok ⊢
    rw [followEach_queries a _ capture _ _ hok]
    rfl

/-- By reports, where every selected row can be read and its file can be
made, a run succeeds, asks for the table and for each dump once and in
order, and leaves the files of the rows. Where the table has no rows it asks
for no dump and leaves the disk as it is. -/
theorem run_report_wrote {a : Analyzer} {capture : Path} {name : Name} (directory : Path)
    {report : String} {count : Nat} {dump : Nat → String} (statistics : Statistics) (disk : Disk)
    (hname : capture.fileName? = some name)
    (hreport : a.conversationReport capture = .ok report)
    (hcount : count = Report.rowCount .conversations report)
    (hdump : ∀ i < count, a.followReport capture i = .ok (dump i))
    (hvalid : ∀ i < count, ∀ line ∈ Report.rows .follow (dump i),
      ∃ packet, Packet.Row packet line.toList)
    (hcan : ∀ path content, RowFile directory name count dump path content →
      disk.IsCreatable path) :
    let r := run a .report capture directory statistics disk
    r.failure = none ∧
      r.progress.queries =
        Query.conversations capture :: (List.range count).map (Query.follow capture) ∧
      disk.Wrote r.progress.disk (RowFile directory name count dump) ∧
      (count = 0 →
        r.progress.queries = [Query.conversations capture] ∧ r.progress.disk = disk) := by
  obtain ⟨packets, hrows, hintake⟩ := exists_intake_report hreport hcount hdump hvalid
  let o : Output := ⟨directory, toStringLossy name⟩
  have ho : Output.ofCapture capture directory = .ok o := Output.ofCapture_eq hname directory
  have hfiles : ∀ path content, (path, content) ∈
      ((List.range count).map fun i => ⟨i, packets i⟩).flatMap o.files ↔
        RowFile directory name count dump path content :=
    fun path content => mem_files_of_dumps_iff hrows directory name
  have hcan' : ∀ f ∈ ((List.range count).map fun i => ⟨i, packets i⟩).flatMap o.files,
      disk.IsCreatable f.1 :=
    fun f hf => hcan f.1 f.2 ((hfiles f.1 f.2).mp hf)
  have hrun := run_wrote statistics ho hintake hcan'
  simp only [hfiles] at hrun
  have hqueries := run_report_queries hreport hrun.1
  rw [← hcount] at hqueries
  refine ⟨hrun.1, hqueries, hrun.2, fun hzero => ⟨?_, ?_⟩⟩
  · rw [hqueries, hzero]
    rfl
  · rw [run_disk a .report statistics disk ho, hintake, hzero]
    rfl

/-- A table of one conversation, and its dump with two rows, from `traces/a.pcap` into
the directory `out`. -/
theorem run_report_wrote_two_rows :
    let table := "=\nUDP Conversations\nFilter:\n|\n|\n10.0.0.1 <-> 10.0.0.2\n=\n"
    let dump := "\n=\nFollow: udp,raw\nFilter:\nNode 0:\nNode 1:\n0a0b\n\t0C ff\n=\n"
    let a : Analyzer := ⟨fun _ => .ok table, fun _ _ => .ok dump, fun _ => .ok []⟩
    let disk : Disk := ⟨[([ofString "out"], .directory)], []⟩
    let files : List (Path × Bytes) :=
      [(ofString "out/a.pcap-conv-0-packet-0.dat", [0x0A, 0x0B]),
        (ofString "out/a.pcap-conv-0-packet-1.dat", [0x0C, 0xFF])]
    let capture := ofString "traces/a.pcap"
    let r := run a .report capture (ofString "out") .zero disk
    r.failure = none ∧ r.progress.queries = [.conversations capture, .follow capture 0] ∧
      disk.Wrote r.progress.disk fun path content => (path, content) ∈ files := by
  intro table dump a disk files capture r
  have hname : Path.fileName? capture = some (ofString "a.pcap") := by decide +kernel
  have hrows : ∀ i < 1, List.Forall₂ (fun line packet => Packet.Row packet line.toList)
      (Report.rows .follow dump) [[0x0A, 0x0B], [0x0C, 0xFF]] :=
    fun _ _ => Packet.ofLines_eq_ok_iff.mp (by decide +kernel)
  have hvalid : ∀ i < 1, ∀ line ∈ Report.rows .follow dump,
      ∃ packet, Packet.Row packet line.toList := by
    intro i _ line hline
    have hlines : Report.rows .follow dump = ["0a0b", "\t0C ff"] := by decide
    rw [hlines] at hline
    rcases (by simpa using hline : line = _ ∨ line = _) with rfl | rfl
    · exact ⟨[0x0A, 0x0B], Packet.ofLine_eq_ok_iff.mp rfl⟩
    · exact ⟨[0x0C, 0xFF], Packet.ofLine_eq_ok_iff.mp rfl⟩
  have hlisted : List.flatMap (Output.files ⟨ofString "out", toStringLossy (ofString "a.pcap")⟩)
      ((List.range 1).map fun i => ⟨i, [[0x0A, 0x0B], [0x0C, 0xFF]]⟩) = files := by
    decide +kernel
  have hfiles : ∀ path content,
      RowFile (ofString "out") (ofString "a.pcap") 1 (fun _ => dump) path content ↔
        (path, content) ∈ files := by
    intro path content
    rw [← hlisted, mem_files_of_dumps_iff hrows]
  have hcreatable : ∀ f ∈ files, disk.IsCreatable f.1 := by decide +kernel
  obtain ⟨hok, hqueries, hwrote, -⟩ := run_report_wrote (a := a) (ofString "out") .zero disk
    hname rfl (by decide) (fun _ _ => rfl) hvalid
    fun path content hfile => hcreatable _ ((hfiles path content).mp hfile)
  have hsame : RowFile (ofString "out") (ofString "a.pcap") 1 (fun _ => dump) =
      fun path content => (path, content) ∈ files :=
    funext fun path => funext fun content => propext (hfiles path content)
  exact ⟨hok, hqueries, hsame ▸ hwrote⟩

end Extraction
end CaptureSplit
