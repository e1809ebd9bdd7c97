/-
CaptureSplit.Proofs.Verdicts — what exit status and summary tell.

A run of the program comes to one of three things: text that was asked for, a
refusal of the arguments, or an extraction. The exit status is 0 for the text
and for an extraction that goes through, and 1 for all else, so long as a
refusal can give the program's name (`exitCode_and_summary`).

The summary is printed for an extraction that goes through and for no other.
Its numbers are totals, and totals start from nothing here: so they are those
of this run, the dots before the summary, the files made, and what these hold.
Dots and summary are given as text, so that the numbers stand in this order.
-/
import CaptureSplit.Program
import CaptureSplit.Proofs.Endings
import CaptureSplit.Proofs.Totals

namespace CaptureSplit.Program

open CaptureSplit.CommandLine (Settings Stop parse)
open CaptureSplit.Text.Utf8 (ofString toString? toStringLossy)

/-! ## What a run comes to -/

/-- The program's name is text, if it has one. -/
def Invocation.IsNamed (i : Invocation) : Prop :=
  ∀ name ∈ i.arguments.head?, ∃ text, toString? name = some text

/-- The arguments ask for help or for the version. -/
def AsksForText (i : Invocation) : Prop :=
  (∃ long, parse i.arguments i.environment = .error (.help long)) ∨
    parse i.arguments i.environment = .error .version

/-- The arguments ask for an extraction, and it goes through. -/
def Extracts (i : Invocation) (h : Host) : Prop :=
  ∃ s, parse i.arguments i.environment = .ok s ∧ (extraction s h).failure = none

theorem run_of_stop {i : Invocation} {stop : Stop}
    (hparse : parse i.arguments i.environment = .error stop) (h : Host) :
    run i h = stopped i h stop := by
  rw [run, hparse]

theorem run_of_settings {i : Invocation} {s : Settings}
    (hparse : parse i.arguments i.environment = .ok s) (h : Host) : run i h = extract s h := by
  rw [run, hparse]

/-- A refusal that can give the program's name ends with status 1. -/
theorem refused_of_isNamed {i : Invocation} (hname : i.IsNamed) (h : Host) (text : String) :
    ∃ stderr, refused i.arguments.head? h text = ⟨1, "", stderr, h.disk, []⟩ := by
  cases hprogram : i.arguments.head? with
  | none => exact ⟨_, rfl⟩
  | some name =>
    obtain ⟨readable, hreadable⟩ := hname name hprogram
    exact ⟨_, by rw [refused, hreadable]⟩

/-- Without an extraction, the exit status is 0 if text is asked for, and 1 for
a refusal. -/
theorem stopped_of_isNamed {i : Invocation} (hname : i.IsNamed) {stop : Stop}
    (hparse : parse i.arguments i.environment = .error stop) (h : Host) :
    let r := stopped i h stop
    (r.exitCode = 0 ↔ AsksForText i) ∧ (r.exitCode ≠ 0 → r.exitCode = 1) ∧
      r.launches = [] ∧ r.disk = h.disk ∧ ∀ f, stop = .fault f → r.stdout = "" := by
  cases stop with
  | help long =>
    refine ⟨⟨fun _ => .inl ⟨long, hparse⟩, fun _ => rfl⟩, fun hne => absurd rfl hne, rfl, rfl, ?_⟩
    rintro f ⟨⟩
  | version =>
    refine ⟨⟨fun _ => .inr hparse, fun _ => rfl⟩, fun hne => absurd rfl hne, rfl, rfl, ?_⟩
    rintro f ⟨⟩
  | fault f =>
    intro r
    obtain ⟨stderr, hrefused⟩ :=
      refused_of_isNamed hname h ((Stop.fault f).text i.arguments.head? i.environment)
    have hr : r = ⟨1, "", stderr, h.disk, []⟩ := hrefused
    have hasks : ¬ AsksForText i := by
      simp [AsksForText, hparse]
    simp [hr, hasks]

/-! ## Extractions -/

theorem extract_exitCode (s : Settings) (h : Host) :
    (extract s h).exitCode = if (extraction s h).failure = none then 0 else 1 := by
  rw [extract]
  cases (extraction s h).failure <;> rfl

theorem extract_disk (s : Settings) (h : Host) :
    (extract s h).disk = (extraction s h).progress.disk := by
  rw [extract]
  cases (extraction s h).failure <;> rfl

theorem extraction_dots (s : Settings) (h : Host) :
    (extraction s h).progress.dots =
      (Extraction.written ((analyzer s).analyzer h) s.mode s.capture s.directory h.disk).length :=
  (Extraction.run_statistics _ s.mode s.capture s.directory .zero h.disk).2

/-- Of an extraction that fails, the dots are all that is printed. -/
theorem extract_stdout_of_failure {s : Settings} {h : Host}
    (hfailure : (extraction s h).failure ≠ none) :
    (extract s h).stdout = String.ofList (List.replicate (extraction s h).progress.dots '.') := by
  rw [extract]
  cases hcause : (extraction s h).failure with
  | none => exact absurd hcause hfailure
  | some f => rfl

/-- An extraction that goes through is followed by its totals and the directory. -/
theorem extract_stdout_of_ok {s : Settings} {h : Host} {dots packets bytes : Nat}
    (hok : (extraction s h).failure = none) (hdots : (extraction s h).progress.dots = dots)
    (hstatistics : (extraction s h).progress.statistics = ⟨dots, packets, bytes⟩) :
    (extract s h).stdout = String.ofList (List.replicate dots '.') ++
      ("\n\nconversations:\t\t" ++ toString dots ++
        "\npackets written:\t" ++ toString packets ++
        "\nbytes written:\t\t" ++ toString bytes ++
        "\n\nProcessing complete. Packets written to " ++ toStringLossy s.directory ++ "\n") := by
  rw [extract, hok, hstatistics, hdots]
  rfl

/-- The totals of an extraction that goes through are the dots, the files made
and what these hold. -/
theorem extraction_statistics_of_ok {s : Settings} {h : Host}
    (hok : (extraction s h).failure = none) :
    let o := extraction s h
    ∃ places : List Location, places.Nodup ∧
      (∀ l, l ∈ places ↔
        ∃ f ∈ Extraction.filesOf ((analyzer s).analyzer h) s.mode s.capture s.directory,
          h.disk.resolve f.1 = .ok l) ∧
      (∀ l, l ∉ places → o.progress.disk.find? l = h.disk.find? l) ∧
      o.progress.statistics =
        ⟨o.progress.dots, places.length, (places.map o.progress.disk.sizeAt).sum⟩ := by
  intro o
  obtain ⟨places, hnodup, hmem, hkeeps, hpackets, hbytes⟩ := Extraction.run_ok_places hok
  refine ⟨places, hnodup, hmem, hkeeps, ?_⟩
  have hconversations : o.progress.statistics.conversations = o.progress.dots := by
    obtain ⟨htotals, hdots⟩ :=
      Extraction.run_statistics ((analyzer s).analyzer h) s.mode s.capture s.directory .zero h.disk
    have hnumber := congrArg (fun t => t.conversations) htotals
    exact (hnumber.trans (Nat.zero_add _)).trans hdots.symm
  have hpackets : o.progress.statistics.packets = places.length := hpackets.trans (Nat.zero_add _)
  have hbytes : o.progress.statistics.bytesWritten = (places.map o.progress.disk.sizeAt).sum :=
    hbytes.trans (Nat.zero_add _)
  calc o.progress.statistics
      = ⟨o.progress.statistics.conversations, o.progress.statistics.packets,
          o.progress.statistics.bytesWritten⟩ := rfl
    _ = ⟨o.progress.dots, places.length, (places.map o.progress.disk.sizeAt).sum⟩ := by
      rw [hconversations, hpackets, hbytes]

/-- The exit status is 0 if text is asked for or an extraction goes through, and
1 otherwise. Without an extraction nothing is run and the disk stays as it is,
and a refusal prints nothing on standard output.

An extraction shows a dot for each conversation that it writes in full, up to
the first that cannot be (`Output.Ends`). If it fails, this is all of standard
output. If it goes through, the summary follows, with the number of the dots,
the number of the files made, no two at one place, and the bytes these hold. -/
theorem exitCode_and_summary {i : Invocation} (hname : i.IsNamed) (h : Host) :
    let r := run i h
    (r.exitCode = 0 ↔ AsksForText i ∨ Extracts i h) ∧
    (r.exitCode ≠ 0 → r.exitCode = 1) ∧
    (∀ stop, parse i.arguments i.environment = .error stop →
      r.launches = [] ∧ r.disk = h.disk ∧ ∀ f, stop = .fault f → r.stdout = "") ∧
    ∀ s, parse i.arguments i.environment = .ok s →
      let a := (analyzer s).analyzer h
      let intake := Extraction.intake a s.mode s.capture
      let done := Extraction.written a s.mode s.capture s.directory h.disk
      let failure := (extraction s h).failure
      (∀ o, Output.ofCapture s.capture s.directory = .ok o →
        ∃ begun broken, o.Ends h.disk intake.1 done begun broken ∧
          failure = broken.or intake.2 ∧
          h.disk.Wrote r.disk fun path content =>
            (path, content) ∈ (done ++ begun).flatMap o.files) ∧
      (failure ≠ none → r.stdout = String.ofList (List.replicate done.length '.')) ∧
      (failure = none → ∃ places : List Location, places.Nodup ∧
        (∀ l, l ∈ places ↔ ∃ f ∈ Extraction.filesOf a s.mode s.capture s.directory,
          h.disk.resolve f.1 = .ok l) ∧
        (∀ l, l ∉ places → r.disk.find? l = h.disk.find? l) ∧
        r.stdout = String.ofList (List.replicate done.length '.') ++
          ("\n\nconversations:\t\t" ++ toString done.length ++
            "\npackets written:\t" ++ toString places.length ++
            "\nbytes written:\t\t" ++ toString (places.map r.disk.sizeAt).sum ++
            "\n\nProcessing complete. Packets written to " ++ toStringLossy s.directory ++
            "\n")) := by
  intro r
  cases hparse : parse i.arguments i.environment with
  | error stop =>
    have hr : r = stopped i h stop := run_of_stop hparse h
    obtain ⟨hzero, hone, hlaunches, hdisk, hstdout⟩ := stopped_of_isNamed hname hparse h
    have hextracts : ¬ Extracts i h := by simp [Extracts, hparse]
    rw [hr]
    refine ⟨by simpa [hextracts] using hzero, hone, ?_, by rintro s ⟨⟩⟩
    rintro _ ⟨⟩
    exact ⟨hlaunches, hdisk, hstdout⟩
  | ok s =>
    have hr : r = extract s h := run_of_settings hparse h
    have hasks : ¬ AsksForText i := by simp [AsksForText, hparse]
    have hextracts : Extracts i h ↔ (extraction s h).failure = none := by simp [Extracts, hparse]
    rw [hr, extract_exitCode, extract_disk, hextracts]
    refine ⟨by simp [hasks], by simp, by rintro stop ⟨⟩, ?_⟩
    rintro _ ⟨⟩
    intro a intake done failure
    refine ⟨fun o ho => Extraction.run_written .zero h.disk ho, ?_, ?_⟩
    · intro hfailure
      rw [extract_stdout_of_failure hfailure, extraction_dots]
    · intro hok
      obtain ⟨places, hnodup, hmem, hkeeps, hstatistics⟩ := extraction_statistics_of_ok hok
      have hdots := extraction_dots s h
      rw [hdots] at hstatistics
      exact ⟨places, hnodup, hmem, hkeeps, extract_stdout_of_ok hok hdots hstatistics⟩

/-- A run over two conversations of one packet each, and one without arguments. -/
theorem exitCode_and_summary_two_rows :
    let h := Host.ofEnding ⟨.exited 0, ofString "\n\n\n\n\n\naa\n\n", []⟩
    let environment : CommandLine.Environment := ⟨none, none, none, none, none⟩
    let whole := run ⟨["extract", "--mode=report", "cap.pcap", "bin"].map ofString, environment⟩ h
    let refused := run ⟨[ofString "extract"], environment⟩ h
    whole.exitCode = 0 ∧
      whole.stdout = "..\n\nconversations:\t\t2\npackets written:\t2\nbytes written:\t\t2" ++
        "\n\nProcessing complete. Packets written to bin\n" ∧
      refused.exitCode = 1 ∧ refused.stdout = "" ∧ refused.launches = [] := by
  intro h environment whole refused
  have hname : ∀ more, Invocation.IsNamed ⟨ofString "extract" :: more, environment⟩ := by
    intro more name hname
    obtain rfl := Option.some.inj hname
    exact ⟨"extract", by decide +kernel⟩
  have hwhole : whole.exitCode = 0 ∧ whole.stdout =
      "..\n\nconversations:\t\t2\npackets written:\t2\nbytes written:\t\t2" ++
        "\n\nProcessing complete. Packets written to bin\n" := by
    let s : Settings := ⟨ofString "cap.pcap", ofString "bin", "tshark", "rtps", .report, "info"⟩
    let made : List Location := [[ofString "bin", ofString "cap.pcap-conv-0-packet-0.dat"],
      [ofString "bin", ofString "cap.pcap-conv-1-packet-0.dat"]]
    have hparse : parse (["extract", "--mode=report", "cap.pcap", "bin"].map ofString)
        environment = .ok s := by decide +kernel
    have hthrough : (extraction s h).failure = none := by decide +kernel
    have hwritten : Extraction.written ((analyzer s).analyzer h) s.mode s.capture s.directory
        h.disk = [⟨0, [[0xAA]]⟩, ⟨1, [[0xAA]]⟩] := by decide +kernel
    have hresolved : (Extraction.filesOf ((analyzer s).analyzer h) s.mode s.capture s.directory).map
        (fun f => h.disk.resolve f.1) = made.map .ok := by decide +kernel
    obtain ⟨hzero, -, -, hsettings⟩ :=
      exitCode_and_summary (hname (["--mode=report", "cap.pcap", "bin"].map ofString)) h
    obtain ⟨-, -, hsummary⟩ := hsettings s hparse
    obtain ⟨places, hnodup, hmem, -, hstdout⟩ := hsummary hthrough
    have hperm : places.Perm made := by
      refine (List.perm_ext_iff_of_nodup hnodup (by decide +kernel)).mpr fun l => ?_
      refine (hmem l).trans (List.mem_map.symm.trans ?_)
      rw [hresolved]
      simp
    rw [hwritten, hperm.length_eq, (hperm.map _).sum_nat] at hstdout
    refine ⟨hzero.mpr (.inr ⟨s, hparse, hthrough⟩), hstdout.trans ?_⟩
    decide +kernel
  have hparse : parse [ofString "extract"] environment =
      .error (.fault (.missingArguments [.capture, .directory] [])) := by decide +kernel
  obtain ⟨hzero, hone, hstop, -⟩ := exitCode_and_summary (hname []) h
  obtain ⟨hlaunches, -, hstdout⟩ := hstop _ hparse
  have hnonzero : refused.exitCode ≠ 0 := by
    rw [ne_eq, hzero, AsksForText, Extracts, hparse]
    simp
  exact ⟨hwhole.1, hwhole.2, hone hnonzero, hstdout _ rfl, hlaunches⟩

end CaptureSplit.Program
