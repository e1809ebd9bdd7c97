/-
CaptureSplit.Proofs.LineEndings — reports whose lines end in two characters.

A carriage return before each newline (`Report.withReturns`) stays at the end
of every line but the last, which has no newline behind it
(`exists_lines_withReturns`). So a report keeps its number of lines, and where
at least one line stands behind the rows, each row has the carriage return at
its end and is otherwise what it was (`rows_withReturns`).

A blank behind a text adds no word to it and lengthens none
(`Text.words_concat_of_blank`), so a row is read as before: to the same packet,
or to the same fault, which names the row as it now is (`Failure.withReturn`).
Two runs, over an analyzer and over the same with such reports, therefore go on
in step; `Extraction.Alike` says how they may end, and saving looks at no report
at all.
-/
import CaptureSplit.Proofs.PacketText
import CaptureSplit.Proofs.ReportText
import CaptureSplit.Extraction

namespace CaptureSplit

/-! ## Lines -/

namespace Report

/-- Carriage return and newline in place of every newline. -/
def returned (text : List Char) : List Char :=
  text.flatMap fun c => if c = '\n' then ['\r', '\n'] else [c]

/-- The report with a carriage return before every newline. -/
def withReturns (report : String) : String := String.ofList (returned report.toList)

theorem returned_newline (text : List Char) :
    returned ('\n' :: text) = ['\r'] ++ '\n' :: returned text := rfl

theorem returned_cons {c : Char} (hc : c ≠ '\n') (text : List Char) :
    returned (c :: text) = c :: returned text := by
  rw [returned, List.flatMap_cons, if_neg hc]
  rfl

/-- All parts but the last end with a newline, before which the carriage return is. -/
theorem exists_splitOn_returned (text : List Char) : ∃ front last,
    text.splitOn '\n' = front ++ [last] ∧
      (returned text).splitOn '\n' = front.map (· ++ ['\r']) ++ [last] := by
  induction text with
  | nil => exact ⟨[], [], rfl, rfl⟩
  | cons c text ih =>
    obtain ⟨front, last, hplain, hreturned⟩ := ih
    by_cases hc : c = '\n'
    · subst hc
      refine ⟨[] :: front, last, ?_, ?_⟩
      · rw [← List.nil_append ('\n' :: text),
          List.splitOn_append_cons_self_of_not_mem List.not_mem_nil, hplain]
        rfl
      · rw [returned_newline, List.splitOn_append_cons_self_of_not_mem (by decide), hreturned]
        rfl
    · rw [returned_cons hc]
      simp only [List.splitOn_cons_eq_if_modifyHead, beq_iff_eq, if_neg hc, hplain, hreturned]
      cases front with
      | nil => exact ⟨[], c :: last, rfl, rfl⟩
      | cons part front => exact ⟨(c :: part) :: front, last, rfl, rfl⟩

theorem exists_lines_withReturns (report : String) : ∃ front last,
    lines report = front ++ [last] ∧
      lines (withReturns report) = front.map (· ++ "\r") ++ [last] := by
  obtain ⟨front, last, hplain, hreturned⟩ := exists_splitOn_returned report.toList
  refine ⟨front.map String.ofList, String.ofList last, ?_, ?_⟩
  · rw [lines, hplain, List.map_append]
    rfl
  · have hline : String.ofList ∘ (· ++ ['\r']) = (· ++ "\r") ∘ String.ofList :=
      funext fun line => String.ofList_append
    rw [lines, withReturns, String.toList_ofList, hreturned, List.map_append, List.map_map, hline,
      List.map_map]
    rfl

theorem length_lines_withReturns (report : String) :
    (lines (withReturns report)).length = (lines report).length := by
  obtain ⟨front, last, hplain, hreturned⟩ := exists_lines_withReturns report
  simp [hplain, hreturned]

theorem rowCount_withReturns (layout : Layout) (report : String) :
    rowCount layout (withReturns report) = rowCount layout report := by
  rw [rowCount, rowCount, length_lines_withReturns]

/-- Where a line is behind the rows, the last line is no row. -/
theorem rows_withReturns {layout : Layout} (hfooter : 0 < layout.footer.toNat) (report : String) :
    rows layout (withReturns report) = (rows layout report).map (· ++ "\r") := by
  obtain ⟨front, last, hplain, hreturned⟩ := exists_lines_withReturns report
  have hle : front.length + 1 - layout.footer.toNat ≤ front.length := by omega
  have hle' : front.length + 1 - layout.footer.toNat ≤ (front.map (· ++ "\r")).length := by
    rwa [List.length_map]
  simp only [rows, hplain, hreturned, List.length_append, List.length_map, List.length_singleton]
  rw [List.take_append_of_le_length hle, List.take_append_of_le_length hle', List.map_drop,
    List.map_take]

/-- The last line has no newline behind it, and so no carriage return. -/
example : rows ⟨0, 0⟩ (withReturns "0a\n0b") = ["0a\r", "0b"] := by decide

end Report

/-! ## Rows -/

theorem Text.words_concat_of_blank {c : Char} (hc : isAsciiBlank c = true) (cs : List Char) :
    words (cs ++ [c]) = words cs := by
  simp [words, List.splitOnP_append_cons _ _ hc]

/-- The failure, said of a row that has a carriage return at its end. -/
def Failure.withReturn : Failure → Failure
  | .malformedHex line fault => .malformedHex (line ++ "\r") fault
  | e => e

namespace Packet

theorem ofLine_return (line : String) :
    ofLine (line ++ "\r") = (ofLine line).mapError Failure.withReturn := by
  have hwords : Text.words (line ++ "\r").toList = Text.words line.toList := by
    rw [String.toList_append]
    exact Text.words_concat_of_blank rfl _
  rw [ofLine, ofLine, hwords]
  cases ofGroups Hex.decode (Text.words line.toList) <;> rfl

theorem ofLines_return : ∀ lines : List String,
    ofLines (lines.map (· ++ "\r")) = (ofLines lines).mapError Failure.withReturn
  | [] => rfl
  | line :: rest => by
      rw [List.map_cons, ofLines, ofLines, ofLine_return, ofLines_return rest]
      cases ofLine line with
      | error e => rfl
      | ok packet => cases ofLines rest <;> rfl

/-- Only a row is ever at fault. -/
theorem exists_fault_of_ofLines {lines : List String} {e : Failure} (h : ofLines lines = .error e) :
    ∃ line ∈ lines, ∃ fault, e = .malformedHex line fault := by
  obtain ⟨front, line, back, rfl, -, hline⟩ := ofLines_eq_error_iff.mp h
  obtain ⟨fault, -, rfl⟩ := mapError_eq_error_iff.mp hline
  exact ⟨line, by simp, fault, rfl⟩

end Packet

/-! ## Runs -/

/-- The analyzer with a carriage return before every newline of its reports. -/
def Analyzer.withReturns (a : Analyzer) : Analyzer where
  conversationReport capture := (a.conversationReport capture).map Report.withReturns
  followReport capture index := (a.followReport capture index).map Report.withReturns
  udpEntries := a.udpEntries

namespace Extraction

/-- Both have come to the same, and failed alike if at all: with the same
failure, or for the same fault of a row that differs by a carriage return. -/
def Alike (plain returned : Outcome) : Prop :=
  returned.progress = plain.progress ∧
    (returned.failure = plain.failure ∨
      ∃ line fault, plain.failure = some (.malformedHex line fault) ∧
        returned.failure = some (.malformedHex (line ++ "\r") fault))

theorem Alike.refl (r : Outcome) : Alike r r := ⟨rfl, .inl rfl⟩

theorem followPackets_withReturns (report : String) :
    followPackets (Report.withReturns report) =
      (followPackets report).mapError Failure.withReturn := by
  rw [followPackets, followPackets, Report.rows_withReturns (by decide), Packet.ofLines_return]

theorem followPackets_withReturns_eq_ok_iff {report : String} {packets : List Packet} :
    followPackets (Report.withReturns report) = .ok packets ↔ followPackets report = .ok packets := by
  rw [followPackets_withReturns, Packet.mapError_eq_ok_iff]

theorem followPackets_withReturns_eq_error_iff {report line : String} {fault : Hex.Fault} :
    followPackets (Report.withReturns report) = .error (.malformedHex (line ++ "\r") fault) ↔
      followPackets report = .error (.malformedHex line fault) := by
  rw [followPackets_withReturns, Packet.mapError_eq_error_iff]
  constructor
  · rintro ⟨e, he, heq⟩
    obtain ⟨line', -, fault', rfl⟩ := Packet.exists_fault_of_ofLines he
    obtain ⟨hline, rfl⟩ := Failure.malformedHex.inj heq
    rw [he, String.append_left_inj _ |>.mp hline]
  · intro h
    exact ⟨_, h, rfl⟩

/-- Each dump is read alike, and what is read is saved in the same way. -/
theorem followEach_withReturns (a : Analyzer) (o : Output) (capture : Path) :
    ∀ (indices : List Nat) (s : Progress),
      Alike (followEach a o capture indices s) (followEach a.withReturns o capture indices s)
  | [], s => .refl _
  | index :: rest, s => by
      have hanswer : a.withReturns.followReport capture index =
          (a.followReport capture index).map Report.withReturns := rfl
      rw [followEach, followEach, hanswer]
      cases a.followReport capture index with
      | error e => exact .refl _
      | ok report =>
        simp only [Except.map]
        cases hread : followPackets report with
        | error e =>
          obtain ⟨line, -, fault, rfl⟩ := Packet.exists_fault_of_ofLines hread
          rw [followPackets_withReturns_eq_error_iff.mpr hread]
          exact ⟨rfl, .inr ⟨line, fault, rfl, rfl⟩⟩
        | ok packets =>
          rw [followPackets_withReturns_eq_ok_iff.mpr hread]
          simp only
          cases save o ⟨index, packets⟩ (s.asked (.follow capture index)) with
          | mk failure after =>
            cases failure with
            | some e => exact .refl _
            | none => exact followEach_withReturns a o capture rest after

theorem run_withReturns (a : Analyzer) (capture directory : Path) (statistics : Statistics)
    (disk : Disk) : Alike (run a .report capture directory statistics disk)
      (run a.withReturns .report capture directory statistics disk) := by
  simp only [run]
  cases Output.ofCapture capture directory with
  | error e => exact .refl _
  | ok o =>
    simp only [byReports, Analyzer.withReturns]
    cases a.conversationReport capture with
    | error e => exact .refl _
    | ok report =>
      simp only [Except.map, Report.rowCount_withReturns]
      exact followEach_withReturns a o capture _ _

/-- A carriage return before every newline of a report changes neither the number
of rows that are counted nor that of the rows selected, by any layout, and a dump
is read to the same packets as before, or else to the same fault of the same
row. So a run by reports asks the same, leaves the same files, prints the same
dots and comes to the same statistics, and fails where it failed before and as
it did, but that the row named then has the carriage return at its end. -/
theorem reports_with_returns_alike :
    (∀ (layout : Report.Layout) (report : String),
      Report.rowCount layout (Report.withReturns report) = Report.rowCount layout report ∧
      (Report.rows layout (Report.withReturns report)).length =
        (Report.rows layout report).length) ∧
    (∀ (report : String),
      (∀ packets, followPackets (Report.withReturns report) = .ok packets ↔
        followPackets report = .ok packets) ∧
      ∀ line fault,
        followPackets (Report.withReturns report) = .error (.malformedHex (line ++ "\r") fault) ↔
          followPackets report = .error (.malformedHex line fault)) ∧
    ∀ (a : Analyzer) (capture directory : Path) (statistics : Statistics) (disk : Disk),
      Alike (run a .report capture directory statistics disk)
        (run a.withReturns .report capture directory statistics disk) := by
  refine ⟨fun layout report => ⟨Report.rowCount_withReturns layout report, ?_⟩, fun report => ?_,
    run_withReturns⟩
  · rw [Report.length_rows, Report.length_rows, Report.length_lines_withReturns]
  · exact ⟨fun packets => followPackets_withReturns_eq_ok_iff,
      fun line fault => followPackets_withReturns_eq_error_iff⟩

end Extraction
end CaptureSplit
