/-
CaptureSplit.Proofs.Totals — what the totals count.

The totals go on from run to run. `History` follows them through any number
of runs in either mode, whatever each run is asked to do and however it ends,
and beside them lists the conversations written in full so far (`written`).
The totals are the sums over these conversations and nothing else
(`history_totals`): one that is broken off by a file that cannot be made does
not count, though files of it may be on the disk.

A run shows a dot for each conversation that it adds to the totals. Of a run
that goes through, the packets it adds are the files it makes, no two at one
place, and the bytes are what these files hold in the end.
-/
import CaptureSplit.Proofs.Runs
import CaptureSplit.Proofs.Stopping

namespace CaptureSplit

/-! ## Files as places -/

namespace Disk

/-- The place of a path that leads anywhere. -/
def placeOf (d : Disk) (p : Path) : Location := (d.resolve p).toOption.getD []

/-- How much the file at a location holds. -/
def sizeAt (d : Disk) (l : Location) : Nat :=
  match d.find? l with
  | some (.file content _) => content.length
  | _ => 0

theorem resolve_eq_placeOf {d : Disk} {p : Path} {l : Location} (h : d.resolve p = .ok l) :
    d.resolve p = .ok (d.placeOf p) := by
  simp [placeOf, h, Except.toOption]

/-- Files at places of their own are as many places, and these hold as much. -/
theorem Wrote.exists_places {before after : Disk} {files : List (Path × Bytes)}
    (h : before.Wrote after fun path content => (path, content) ∈ files)
    (hapart : files.Pairwise before.Apart) :
    ∃ places : List Location, places.Nodup ∧
      (∀ l, l ∈ places ↔ ∃ f ∈ files, before.resolve f.1 = .ok l) ∧
      (∀ l, l ∉ places → after.find? l = before.find? l) ∧
      places.length = files.length ∧
      (places.map after.sizeAt).sum = (files.map fun f => f.2.length).sum := by
  have hplace : ∀ f ∈ files, before.resolve f.1 = .ok (before.placeOf f.1) := by
    intro f hf
    obtain ⟨l, hl, -⟩ := h.holds f.1 f.2 hf
    exact resolve_eq_placeOf hl
  have hmem : ∀ l, l ∈ files.map (fun f => before.placeOf f.1) ↔
      ∃ f ∈ files, before.resolve f.1 = .ok l := by
    intro l
    rw [List.mem_map]
    constructor
    · rintro ⟨f, hf, rfl⟩
      exact ⟨f, hf, hplace f hf⟩
    · rintro ⟨f, hf, hl⟩
      exact ⟨f, hf, Except.ok.inj ((hplace f hf).symm.trans hl)⟩
  refine ⟨files.map fun f => before.placeOf f.1, ?_, hmem, ?_, by rw [List.length_map], ?_⟩
  · rw [List.nodup_iff_pairwise_ne, List.pairwise_map]
    refine hapart.imp_of_mem ?_
    intro f g hf hg hfg heq
    exact hfg _ (hplace f hf) (heq ▸ hplace g hg)
  · intro l hl
    refine h.keeps l ?_
    intro path content hfile hpath
    exact hl ((hmem l).mpr ⟨(path, content), hfile, hpath⟩)
  · rw [List.map_map]
    refine congrArg List.sum (List.map_congr_left ?_)
    intro f hf
    obtain ⟨l, hl, -, hfind⟩ := h.holds f.1 f.2 hf
    obtain rfl := Except.ok.inj ((hplace f hf).symm.trans hl)
    simp [sizeAt, hfind]

end Disk

namespace Output

theorem length_flatMap_files (o : Output) (cs : List Conversation) :
    (cs.flatMap o.files).length = (cs.map fun c => c.packets.length).sum := by
  simp [List.length_flatMap, files, filesFrom]

theorem sum_length_files (o : Output) (c : Conversation) :
    ((o.files c).map fun f => f.2.length).sum = size c.packets := by
  rw [files, filesFrom, List.map_map]
  show (c.packets.zipIdx.map (List.length ∘ Prod.fst)).sum = c.packets.flatten.length
  rw [← List.map_map, List.zipIdx_map_fst, List.length_flatten]

theorem sum_length_flatMap_files (o : Output) (cs : List Conversation) :
    ((cs.flatMap o.files).map fun f => f.2.length).sum =
      (cs.map fun c => size c.packets).sum := by
  induction cs with
  | nil => rfl
  | cons c cs ih =>
    rw [List.flatMap_cons, List.map_append, List.sum_append, ih, sum_length_files]
    rfl

end Output

namespace Extraction

/-! ## Conversations written -/

/-- The conversations of a run that are written in full: those before the first
that cannot be. -/
def written (a : Analyzer) (mode : Mode) (capture directory : Path) (disk : Disk) :
    List Conversation :=
  match Output.ofCapture capture directory with
  | .error _ => []
  | .ok o => (intake a mode capture).1.takeWhile fun c => o.IsWritable disk c

/-- A run adds what is written to the totals, a dot for each conversation. -/
theorem run_statistics (a : Analyzer) (mode : Mode) (capture directory : Path)
    (statistics : Statistics) (disk : Disk) :
    let r := run a mode capture directory statistics disk
    r.progress.statistics = statistics.grown (written a mode capture directory disk) ∧
      r.progress.dots = (written a mode capture directory disk).length := by
  intro r
  cases ho : Output.ofCapture capture directory with
  | error e => simp [r, run, written, ho, Progress.start]
  | ok o =>
    obtain ⟨done, begun, failure, hends, -, -, hstatistics, hdots⟩ :=
      run_ends a mode statistics disk ho
    have hwritten : written a mode capture directory disk = done := by
      rw [written, ho, hends.done_eq]
    rw [hwritten]
    exact ⟨hstatistics, hdots⟩

/-- How the writing of a run ends. -/
theorem run_written {a : Analyzer} {mode : Mode} {capture directory : Path} {o : Output}
    (statistics : Statistics) (disk : Disk) (ho : Output.ofCapture capture directory = .ok o) :
    let r := run a mode capture directory statistics disk
    let done := written a mode capture directory disk
    ∃ begun failure, o.Ends disk (intake a mode capture).1 done begun failure ∧
      r.failure = failure.or (intake a mode capture).2 ∧
      disk.Wrote r.progress.disk fun path content =>
        (path, content) ∈ (done ++ begun).flatMap o.files := by
  obtain ⟨done, begun, failure, hends, hfailure, hwrote, -⟩ := run_ends a mode statistics disk ho
  have hwritten : written a mode capture directory disk = done := by
    rw [written, ho, hends.done_eq]
  rw [hwritten]
  exact ⟨begun, failure, hends, hfailure, hwrote⟩

/-- A run that goes through adds the files that it makes. -/
theorem run_ok_places {a : Analyzer} {mode : Mode} {capture directory : Path}
    {statistics : Statistics} {disk : Disk}
    (hok : (run a mode capture directory statistics disk).failure = none) :
    let r := run a mode capture directory statistics disk
    ∃ places : List Location, places.Nodup ∧
      (∀ l, l ∈ places ↔ ∃ f ∈ filesOf a mode capture directory, disk.resolve f.1 = .ok l) ∧
      (∀ l, l ∉ places → r.progress.disk.find? l = disk.find? l) ∧
      r.progress.statistics.packets = statistics.packets + places.length ∧
      r.progress.statistics.bytesWritten =
        statistics.bytesWritten + (places.map r.progress.disk.sizeAt).sum := by
  cases ho : Output.ofCapture capture directory with
  | error e => simp [run, ho] at hok
  | ok o =>
    obtain ⟨done, begun, failure, hends, hfailure, hwrote, hstatistics, -⟩ :=
      run_ends a mode statistics disk ho
    rw [hok] at hfailure
    cases hends with
    | stopped _ _ _ _ _ => cases hfailure
    | written hall =>
      have hfiles : filesOf a mode capture directory =
          (intake a mode capture).1.flatMap o.files := by rw [filesOf, ho]
      rw [List.append_nil, ← hfiles] at hwrote
      have hapart := (filesOf_distinct a mode ho).imp fun h => h.apart disk
      obtain ⟨places, hnodup, hmem, hkeeps, hlength, hsizes⟩ := hwrote.exists_places hapart
      refine ⟨places, hnodup, hmem, hkeeps, ?_, ?_⟩
      · rw [hstatistics, hlength, hfiles, o.length_flatMap_files]
        rfl
      · rw [hstatistics, hsizes, hfiles, o.sum_length_flatMap_files]
        rfl

/-! ## Histories -/

/-- The totals and the disk after some runs, and the conversations that these
have written in full. Between two runs the disk may change in any way. -/
inductive History : Statistics → Disk → List Conversation → Prop where
  | start (disk : Disk) : History .zero disk []
  | change {t : Statistics} {disk : Disk} {cs : List Conversation} (later : Disk) :
    History t disk cs → History t later cs
  | run {t : Statistics} {disk : Disk} {cs : List Conversation} (a : Analyzer) (mode : Mode)
    (capture directory : Path) : History t disk cs →
    History (run a mode capture directory t disk).progress.statistics
      (run a mode capture directory t disk).progress.disk
      (cs ++ written a mode capture directory disk)

/-- A run on totals that are the sums over some conversations leaves totals that
are the sums over these and those it writes. -/
theorem History.totals {t : Statistics} {disk : Disk} {cs : List Conversation}
    (h : History t disk cs) : t = Statistics.zero.grown cs := by
  induction h with
  | start disk => rfl
  | change later _ ih => exact ih
  | @run t disk cs a mode capture directory _ ih =>
    rw [(run_statistics a mode capture directory t disk).1, ih, Statistics.grown_append]

/-- After any history the totals are the sums over the conversations written in
full. The next run shows as many dots as it adds conversations; it writes
conversations in full up to one that it cannot (`Output.Ends`), of which some
files may stand; and if it goes through, it adds as many packets as it makes
files, at as many places, and as many bytes as these hold in the end. -/
theorem history_totals {t : Statistics} {disk : Disk} {cs : List Conversation}
    (h : History t disk cs) :
    t = ⟨cs.length, (cs.map fun c => c.packets.length).sum,
      (cs.map fun c => Output.size c.packets).sum⟩ ∧
    ∀ (a : Analyzer) (mode : Mode) (capture directory : Path),
      let r := run a mode capture directory t disk
      let done := written a mode capture directory disk
      History r.progress.statistics r.progress.disk (cs ++ done) ∧
      r.progress.statistics.conversations = t.conversations + r.progress.dots ∧
      (∀ o, Output.ofCapture capture directory = .ok o →
        ∃ begun failure, o.Ends disk (intake a mode capture).1 done begun failure ∧
          r.failure = failure.or (intake a mode capture).2 ∧
          disk.Wrote r.progress.disk fun path content =>
            (path, content) ∈ (done ++ begun).flatMap o.files) ∧
      (r.failure = none → ∃ places : List Location, places.Nodup ∧
        (∀ l, l ∈ places ↔ ∃ f ∈ filesOf a mode capture directory, disk.resolve f.1 = .ok l) ∧
        (∀ l, l ∉ places → r.progress.disk.find? l = disk.find? l) ∧
        r.progress.statistics.packets = t.packets + places.length ∧
        r.progress.statistics.bytesWritten =
          t.bytesWritten + (places.map r.progress.disk.sizeAt).sum) := by
  refine ⟨?_, ?_⟩
  · rw [h.totals]
    simp [Statistics.grown, Statistics.zero]
  · intro a mode capture directory r done
    obtain ⟨hstatistics, hdots⟩ := run_statistics a mode capture directory t disk
    refine ⟨.run a mode capture directory h, ?_, fun o ho => run_written t disk ho, run_ok_places⟩
    rw [hstatistics, hdots]
    rfl

/-- A run that a directory in the place of a packet breaks off, and one on the
same totals that goes through. -/
theorem history_totals_after_break :
    let entries : List Dissection.Entry :=
      [⟨some "1", some "0a"⟩, ⟨some "2", some "0b"⟩, ⟨some "2", some "0c"⟩]
    let a : Analyzer := ⟨fun _ => .ok "", fun _ _ => .ok "", fun _ => .ok entries⟩
    let first := Text.Utf8.ofString "x.pcap"
    let second := Text.Utf8.ofString "y.pcap"
    let disk : Disk := ⟨[([Output.packetPath ⟨[], "x.pcap"⟩ 2 1], .directory)], []⟩
    let broken := run a .fields first [] .zero disk
    let whole := run a .fields second [] broken.progress.statistics broken.progress.disk
    broken.failure ≠ none ∧ broken.progress.statistics = ⟨1, 1, 1⟩ ∧
      whole.failure = none ∧ whole.progress.statistics = ⟨3, 4, 4⟩ ∧
      ∃ places : List Location, places.Nodup ∧ places.length = 3 ∧
        (places.map whole.progress.disk.sizeAt).sum = 3 := by
  intro entries a first second disk broken whole
  have hbroken : written a .fields first [] disk = [⟨1, [[0x0A]]⟩] := by decide +kernel
  have hwhole : written a .fields second [] broken.progress.disk =
      [⟨1, [[0x0A]]⟩, ⟨2, [[0x0B], [0x0C]]⟩] := by decide +kernel
  have hfirst := (history_totals (.start disk)).2 a .fields first []
  have hsecond := (history_totals hfirst.1).2 a .fields second []
  have htotals : broken.progress.statistics = ⟨1, 1, 1⟩ := by
    rw [(history_totals hfirst.1).1, hbroken]
    rfl
  have htotals' : whole.progress.statistics = ⟨3, 4, 4⟩ := by
    rw [(history_totals hsecond.1).1, hbroken, hwhole]
    rfl
  have hok : whole.failure = none := by decide +kernel
  obtain ⟨places, hnodup, -, -, hpackets, hbytes⟩ := hsecond.2.2.2 hok
  have hpackets : whole.progress.statistics.packets =
      broken.progress.statistics.packets + places.length := hpackets
  have hbytes : whole.progress.statistics.bytesWritten =
      broken.progress.statistics.bytesWritten + (places.map whole.progress.disk.sizeAt).sum :=
    hbytes
  rw [htotals', htotals] at hpackets hbytes
  exact ⟨by decide +kernel, htotals, hok, htotals', places, hnodup,
    (Nat.add_left_cancel hpackets).symm, (Nat.add_left_cancel hbytes).symm⟩

end Extraction
end CaptureSplit
