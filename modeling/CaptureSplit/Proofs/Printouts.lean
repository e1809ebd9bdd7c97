/-
CaptureSplit.Proofs.Printouts — what becomes of the output of a program that is
asked for a report.

A report is cut into lines by their numbers and its lines into digits, so it has
to be what the program printed, byte for byte. `Answers` says when this is so and
what is answered otherwise: the status comes before the text, and of a program
that failed the standard output does not count at all, whatever it is.

That no byte changes rests on `Text.Utf8.decode_eq_ok_iff`, and which bytes are
refused on `Text.Utf8.exists_decode_iff`. The text of a failure is told by
`Said`, through what is shown of ill-formed bytes and what is left between white
space (`said_iff`).
-/
import CaptureSplit.Proofs.Endings
import CaptureSplit.Proofs.WellFormed

namespace CaptureSplit.Tshark

open CaptureSplit.Text.Utf8 (ofString WellFormed ShownAs)

/-- The text that a program gave on standard error: what is shown of the bytes,
without the white space around it. -/
def Said (stderr : Bytes) (said : String) : Prop :=
  ∃ shown, ShownAs stderr shown ∧ Text.Trimmed shown said.toList

theorem said_iff {stderr : Bytes} {said : String} :
    Said stderr said ↔ said = String.ofList (Text.trim (Text.Utf8.decodeLossy stderr)) := by
  have hread : Said stderr said ↔ Text.trim (Text.Utf8.decodeLossy stderr) = said.toList := by
    simp only [Said, Text.Utf8.shownAs_iff, Text.trimmed_iff, exists_eq_left']
  rw [hread]
  constructor
  · intro h
    rw [h, String.ofList_toList]
  · rintro rfl
    rw [String.toList_ofList]

/-- What is answered to a question for a report whose program has ended. -/
structure Answers (t : Tshark) (e : Ending) (answer : Except Failure String) : Prop where
  /-- The report is what was printed, and that of a program that succeeded. -/
  report_iff : ∀ text, answer = .ok text ↔ e.status = .exited 0 ∧ ofString text = e.stdout
  exists_report_iff : (∃ text, answer = .ok text) ↔ e.status = .exited 0 ∧ WellFormed e.stdout
  failed : e.status ≠ .exited 0 → ∃ said, (∀ other, Said e.stderr other ↔ other = said) ∧
    answer = .error (.analyzerFailed t.program e.status said)
  notText : e.status = .exited 0 → ¬ WellFormed e.stdout →
    ∃ fault, answer = .error (.outputNotUtf8 fault)

theorem readReport_of_success {t : Tshark} {e : Ending} (h : e.status = .exited 0) :
    t.readReport e =
      ((Text.Utf8.decode e.stdout).map String.ofList).mapError .outputNotUtf8 := by
  have hsuccess : e.status.isSuccess = true := by simp [ExitStatus.isSuccess, h]
  rw [readReport, if_pos hsuccess]
  cases Text.Utf8.decode e.stdout <;> rfl

theorem readReport_of_failure {t : Tshark} {e : Ending} (h : e.status ≠ .exited 0) :
    t.readReport e = .error (.analyzerFailed t.program e.status (errorText e)) := by
  have hfailure : ¬ e.status.isSuccess = true := by simpa [ExitStatus.isSuccess] using h
  rw [readReport, if_neg hfailure]

theorem readReport_eq_ok_iff {t : Tshark} {e : Ending} {text : String} :
    t.readReport e = .ok text ↔ e.status = .exited 0 ∧ ofString text = e.stdout := by
  by_cases hstatus : e.status = .exited 0
  · rw [readReport_of_success hstatus, ofString, ← Text.Utf8.decode_eq_ok_iff]
    cases hdecode : Text.Utf8.decode e.stdout with
    | ok cs => simp [Except.map, Except.mapError, hstatus, ← String.toList_inj]
    | error fault => simp [Except.map, Except.mapError]
  · simp [readReport_of_failure hstatus, hstatus]

theorem answers_readReport (t : Tshark) (e : Ending) : t.Answers e (t.readReport e) := by
  refine ⟨fun text => readReport_eq_ok_iff, ?_, ?_, ?_⟩
  · simp only [readReport_eq_ok_iff, exists_and_left, Text.Utf8.wellFormed_iff]
    refine and_congr_right fun _ => ⟨?_, ?_⟩
    · rintro ⟨text, htext⟩
      exact ⟨text.toList, htext⟩
    · rintro ⟨cs, hcs⟩
      exact ⟨String.ofList cs, by rw [ofString, String.toList_ofList, hcs]⟩
  · intro hstatus
    exact ⟨errorText e, fun other => said_iff, readReport_of_failure hstatus⟩
  · intro hstatus hill
    rw [readReport_of_success hstatus]
    cases hdecode : Text.Utf8.decode e.stdout with
    | ok cs => exact absurd (Text.Utf8.exists_decode_iff.mp ⟨cs, hdecode⟩) hill
    | error fault => exact ⟨fault, rfl⟩

theorem report_of_launch {t : Tshark} {h : Host} {q : Query} {l : Launch}
    (hl : t.launch h q = .ok l) : t.Answers l.ending (t.report h q) := by
  have hreport : t.report h q = t.readReport l.ending := by simp only [report, hl]
  rw [hreport]
  exact answers_readReport t l.ending

/-- Where the program of a report can be started, however it ends and whatever it
prints, the report is the standard output of a program that ended with status 0,
byte for byte. If this is no text the report is refused, and so is that of a
program that ended in another way, with its status and what it said. -/
theorem reports_passed_on_or_refused (t : Tshark) (h : Host) (capture : Path) :
    (∀ l, t.launch h (.conversations capture) = .ok l →
      t.Answers l.ending ((t.analyzer h).conversationReport capture)) ∧
    ∀ index l, t.launch h (.follow capture index) = .ok l →
      t.Answers l.ending ((t.analyzer h).followReport capture index) :=
  ⟨fun _ hl => report_of_launch hl, fun _ _ hl => report_of_launch hl⟩

/-- A report with a byte order mark and white space at both ends is passed on. The
bytes of a surrogate are refused; of a program that was killed they do not count,
and of what it said the two characters that break off are shown. -/
theorem reports_passed_on_or_refused_three_endings :
    let t : Tshark := ⟨"tshark", "rtps"⟩
    let capture := ofString "cap.pcap"
    let answer (e : Ending) := (t.analyzer (Host.ofEnding e)).followReport capture 0
    let text := "\uFEFF 1\r\n\n"
    let surrogate : Bytes := [0xED, 0xA0, 0x80]
    let broken : Bytes := [0x20, 0xE2, 0x82] ++ ofString "boom" ++ [0xF0, 0x9F, 0x92, 0x0A]
    answer ⟨.exited 0, ofString text, surrogate⟩ = .ok text ∧
      (∃ fault, answer ⟨.exited 0, surrogate, broken⟩ = .error (.outputNotUtf8 fault)) ∧
      answer ⟨.signalled 9, surrogate, broken⟩ =
        .error (.analyzerFailed "tshark" (.signalled 9) "\uFFFDboom\uFFFD") := by
  intro t capture answer text surrogate broken
  let endings : List Ending := [⟨.exited 0, ofString text, surrogate⟩,
    ⟨.exited 0, surrogate, broken⟩, ⟨.signalled 9, surrogate, broken⟩]
  have hlaunch : ∀ e ∈ endings, t.launch (Host.ofEnding e) (.follow capture 0) =
      .ok ⟨[ofString "bin", ofString "tshark"],
        (t.reportCommand (Host.ofEnding e) capture (followStatistic 0)).arguments, e⟩ := by
    decide +kernel
  have hanswers : ∀ e ∈ endings, t.Answers e (answer e) := fun e he =>
    (reports_passed_on_or_refused t (Host.ofEnding e) capture).2 0 _ (hlaunch e he)
  refine ⟨?_, ?_, ?_⟩
  · exact ((hanswers _ (by simp [endings])).report_iff text).mpr ⟨rfl, rfl⟩
  · refine (hanswers _ (by simp [endings])).notText rfl ?_
    have hnone : (Text.Utf8.decode surrogate).toOption = none := by decide +kernel
    rw [← Text.Utf8.exists_decode_iff]
    rintro ⟨cs, hcs⟩
    rw [hcs] at hnone
    cases hnone
  · obtain ⟨said, hsaid, hanswer⟩ :=
      (hanswers ⟨.signalled 9, surrogate, broken⟩ (by simp [endings])).failed (by decide)
    have hshown : Said broken "\uFFFDboom\uFFFD" := said_iff.mpr (by decide +kernel)
    rw [hanswer, ← (hsaid _).mp hshown]

end CaptureSplit.Tshark
