/-
CaptureSplit.Proofs.Endings — what becomes of a program that fails.

A report is taken from a program that succeeded or not at all. So where a run
by reports goes through, each program that it started has succeeded.

A dissection is taken from a program that says nothing on standard error, and
with what status the program ended is not looked at
(`Tshark.readDissection_eq_ok_iff`). A program that dies in silence while it
prints leaves the front of a document, and unless this breaks off within a tag
it is read as one of fewer packets (`Pdml.read_of_append`). A run by fields then
goes through with some of the files that it would have made
(`success_checked_by_reports`).
-/
import CaptureSplit.Tshark
import CaptureSplit.Proofs.Documents
import CaptureSplit.Proofs.Runs
import CaptureSplit.Proofs.Stopping

namespace CaptureSplit

/-! ## Runs that go through -/

/-- The conversations of the first entries are begun as those of all. -/
theorem Dissection.group_of_append {first more : List Entry} {cs : List Conversation}
    (h : group (first ++ more) = .ok cs) : ∃ begun, group first = .ok begun ∧
      ∀ c ∈ begun, ∃ c' ∈ cs, c'.index = c.index ∧ c.packets <+: c'.packets := by
  have hvalid := reads_of_groupFrom_eq_ok h
  obtain ⟨begun, hbegun⟩ := exists_groupFrom Buffers.empty fun e he =>
    hvalid e (List.mem_append_left more he)
  refine ⟨begun, hbegun, ?_⟩
  intro c hc
  obtain ⟨hord, hpackets⟩ := group_eq_ok hbegun
  have hc' : c.packets <+: Buffers.packetsOf c.index cs := by
    rw [← Buffers.packetsOf_of_mem hord hc, hpackets, (group_eq_ok h).2, List.filterMap_append]
    exact List.prefix_append _ _
  have hne : Buffers.packetsOf c.index cs ≠ [] := by
    intro hnil
    rw [hnil] at hc'
    exact hord.nonempty c hc (List.prefix_nil.mp hc')
  obtain ⟨c', hmem, hindex, heq⟩ := Buffers.exists_mem_of_packetsOf hne
  exact ⟨c', hmem, hindex, heq ▸ hc'⟩

namespace Extraction

/-- By reports, a run that goes through has been given all that it asked for. -/
theorem reports_of_run {a : Analyzer} {capture directory : Path} {statistics : Statistics}
    {disk : Disk} (hok : (run a .report capture directory statistics disk).failure = none) :
    ∀ q ∈ (run a .report capture directory statistics disk).progress.queries,
      (q = .conversations capture ∧ ∃ report, a.conversationReport capture = .ok report) ∨
        ∃ i dump, q = .follow capture i ∧ a.followReport capture i = .ok dump := by
  obtain ⟨o, cs, -, hintake, -⟩ := run_failure_eq_none_iff.mp hok
  cases hreport : a.conversationReport capture with
  | error e => simp [intake, hreport] at hintake
  | ok report =>
    simp only [intake, hreport] at hintake
    rw [run_report_queries hreport hok]
    intro q hq
    rcases List.mem_cons.mp hq with rfl | hq
    · exact .inl ⟨rfl, report, rfl⟩
    · obtain ⟨i, hi, rfl⟩ := List.mem_map.mp hq
      rw [← map_index_of_fetch (congrArg Prod.snd hintake)] at hi
      obtain ⟨c, hc, rfl⟩ := List.mem_map.mp hi
      obtain ⟨dump, hdump, -⟩ := dumps_of_mem_fetch c hc
      exact .inr ⟨c.index, dump, rfl, hdump⟩

/-- By fields, a run that goes through on some entries goes through on the first
of them, and makes some of the files. -/
theorem run_fields_of_append {a b : Analyzer} {capture directory : Path}
    {statistics : Statistics} {disk : Disk} {first more : List Dissection.Entry}
    (ha : a.udpEntries capture = .ok (first ++ more)) (hb : b.udpEntries capture = .ok first)
    (hok : (run a .fields capture directory statistics disk).failure = none) :
    (run b .fields capture directory statistics disk).failure = none ∧
      filesOf b .fields capture directory ⊆ filesOf a .fields capture directory := by
  obtain ⟨o, cs, ho, hintake, hall⟩ := run_failure_eq_none_iff.mp hok
  obtain ⟨entries, hentries, hgroup⟩ := intake_fields_eq_iff.mp hintake
  obtain rfl := Except.ok.inj (ha.symm.trans hentries)
  obtain ⟨begun, hbegun, hfront⟩ := Dissection.group_of_append hgroup
  have hintake' := intake_fields_eq_iff.mpr ⟨first, hb, hbegun⟩
  refine ⟨run_failure_eq_none_iff.mpr ⟨o, begun, ho, hintake', ?_⟩, ?_⟩
  · intro c hc n hn
    obtain ⟨c', hc', hindex, hpackets⟩ := hfront c hc
    rw [← hindex]
    exact hall c' hc' n (Nat.lt_of_lt_of_le hn hpackets.length_le)
  · simp only [filesOf, ho, hintake, hintake']
    rintro ⟨path, content⟩ hmem
    obtain ⟨c, hc, hmem⟩ := List.mem_flatMap.mp hmem
    obtain ⟨n, hn, rfl⟩ := Output.mem_files_iff.mp hmem
    obtain ⟨c', hc', hindex, later, hlater⟩ := hfront c hc
    refine List.mem_flatMap.mpr ⟨c', hc', Output.mem_files_iff.mpr ⟨n, ?_, by rw [hindex]⟩⟩
    rw [← hlater, List.getElem?_append_left (List.getElem?_eq_some_iff.mp hn).1]
    exact hn

end Extraction

/-! ## Programs -/

/-- The programs of the second host print what those of the first do, or the
front of it. They say nothing on standard error and may end in any way. -/
structure Host.BreaksOff (h h' : Host) : Prop where
  disk : h'.disk = h.disk
  searchPath : h'.searchPath = h.searchPath
  stdout : ∀ l arguments, (h'.perform l arguments).stdout <+: (h.perform l arguments).stdout
  stderr : ∀ l arguments, (h'.perform l arguments).stderr = []

theorem Host.BreaksOff.launch {h h' : Host} (hbreaks : h.BreaksOff h') {c : Command} {l : Launch}
    (hl : h.launch c = .ok l) :
    ∃ l', h'.launch c = .ok l' ∧ l'.ending.stdout <+: l.ending.stdout ∧
      l'.ending.stderr = [] := by
  simp only [Host.launch, hbreaks.disk] at hl ⊢
  by_cases hnul : c.hasNul = true
  · simp [hnul] at hl
  · cases hplace : h.disk.programAt c.program c.searchPath with
    | error e => simp [hnul, hplace] at hl
    | ok place =>
      by_cases hlong : c.isOverlong = true
      · simp [hnul, hplace, hlong] at hl
      · simp only [hnul, hplace, hlong, Bool.false_eq_true, if_false] at hl ⊢
        obtain rfl := Except.ok.inj hl
        exact ⟨_, rfl, hbreaks.stdout place c.arguments, hbreaks.stderr place c.arguments⟩

namespace Tshark

/-- The program that a question starts is there and succeeds. -/
def Succeeds (t : Tshark) (h : Host) (q : Query) : Prop :=
  ∃ l, t.launch h q = .ok l ∧ l.ending.status = .exited 0

theorem succeeds_of_report {t : Tshark} {h : Host} {q : Query} {text : String}
    (htext : t.report h q = .ok text) : t.Succeeds h q := by
  simp only [report] at htext
  cases hl : t.launch h q with
  | error e => simp [hl] at htext
  | ok l =>
    simp only [hl, readReport] at htext
    split at htext
    · next hsuccess => exact ⟨l, hl, by simpa [ExitStatus.isSuccess] using hsuccess⟩
    · cases htext

theorem complaint?_eq_none_iff {stderr : Bytes} : complaint? stderr = none ↔ stderr = [] := by
  unfold complaint?
  cases stderr with
  | nil => simp
  | cons b rest => cases Text.Utf8.toString? (firstLine (b :: rest)) <;> simp

/-- A dissection is taken where its document can be read and nothing is said of
it. The status of the run has no part in this. -/
theorem readDissection_eq_ok_iff {t : Tshark} {e : Ending} {entries : List Dissection.Entry} :
    t.readDissection e = .ok entries ↔ Pdml.read e.stdout = .ok entries ∧ e.stderr = [] := by
  rw [← complaint?_eq_none_iff]
  unfold readDissection
  cases Pdml.read e.stdout with
  | error fault => simp
  | ok found => cases complaint? e.stderr <;> simp

theorem readDissection_of_fault (t : Tshark) {e : Ending} {fault : Pdml.Fault}
    (h : Pdml.read e.stdout = .error fault) :
    t.readDissection e = .error (.dissectorFailed t.program fault) := by
  simp only [readDissection, h]

theorem udpEntries_eq_ok_iff {t : Tshark} {h : Host} {capture : Path}
    {entries : List Dissection.Entry} :
    t.udpEntries h capture = .ok entries ↔ ∃ l, t.launch h (.dissection capture) = .ok l ∧
      Pdml.read l.ending.stdout = .ok entries ∧ l.ending.stderr = [] := by
  unfold udpEntries
  cases t.launch h (.dissection capture) with
  | error e => simp
  | ok l => simp [readDissection_eq_ok_iff]

theorem dissection_of_breaksOff {t : Tshark} {h h' : Host} (hbreaks : h.BreaksOff h')
    {capture : Path} {l : Launch} (hl : t.launch h (.dissection capture) = .ok l) :
    ∃ l', t.launch h' (.dissection capture) = .ok l' ∧
      l'.ending.stdout <+: l.ending.stdout ∧ l'.ending.stderr = [] := by
  have hcommand : t.dissectionCommand h' capture = t.dissectionCommand h capture := by
    simp only [dissectionCommand, hbreaks.searchPath]
  simp only [launch] at hl ⊢
  cases htext : Text.Utf8.toString? capture with
  | none => simp [htext] at hl
  | some text =>
    simp only [htext, Packet.mapError_eq_ok_iff, launchDissection, hbreaks.disk, hcommand] at hl ⊢
    cases hthere : h.disk.lookUp capture with
    | error e => simp [hthere] at hl
    | ok found =>
      simp only [hthere, Packet.mapError_eq_ok_iff] at hl ⊢
      exact hbreaks.launch hl

/-- A dissection that breaks off is malformed or one of fewer packets. -/
theorem udpEntries_of_breaksOff {t : Tshark} {h h' : Host} (hbreaks : h.BreaksOff h')
    {capture : Path} {entries : List Dissection.Entry}
    (hentries : t.udpEntries h capture = .ok entries) :
    t.udpEntries h' capture = .error (.dissectorFailed t.program .malformedMarkup) ∨
      ∃ first more, entries = first ++ more ∧ t.udpEntries h' capture = .ok first := by
  obtain ⟨l, hl, hread, -⟩ := udpEntries_eq_ok_iff.mp hentries
  obtain ⟨l', hl', ⟨back, hback⟩, hquiet⟩ := dissection_of_breaksOff hbreaks hl
  rw [← hback] at hread
  rcases Pdml.read_of_append hread with hmalformed | ⟨first, hfirst, more, hmore⟩
  · refine .inl ?_
    simp only [udpEntries, hl', readDissection_of_fault t hmalformed]
  · exact .inr ⟨first, more, hmore.symm, udpEntries_eq_ok_iff.mpr ⟨l', hl', hfirst, hquiet⟩⟩

/-- A report is had from a program that succeeded only, and so it is with all
reports of a run that goes through. A dissection is had from a program that says
nothing on standard error, if it can be read, whatever the status of the program:
a run by fields that goes through also does so if the program breaks off in
silence, unless within a tag, and makes some of the files. -/
theorem success_checked_by_reports (t : Tshark) (h : Host) :
    (∀ q text, t.report h q = .ok text → t.Succeeds h q) ∧
    (∀ capture directory statistics disk,
      let r := Extraction.run (t.analyzer h) .report capture directory statistics disk
      r.failure = none → ∀ q ∈ r.progress.queries, t.Succeeds h q) ∧
    (∀ capture entries, t.udpEntries h capture = .ok entries ↔
      ∃ l, t.launch h (.dissection capture) = .ok l ∧
        Pdml.read l.ending.stdout = .ok entries ∧ l.ending.stderr = []) ∧
    ∀ h' capture directory statistics disk, h.BreaksOff h' →
      (Extraction.run (t.analyzer h) .fields capture directory statistics disk).failure = none →
      t.udpEntries h' capture = .error (.dissectorFailed t.program .malformedMarkup) ∨
        (Extraction.run (t.analyzer h') .fields capture directory statistics disk).failure = none ∧
          Extraction.filesOf (t.analyzer h') .fields capture directory ⊆
            Extraction.filesOf (t.analyzer h) .fields capture directory := by
  refine ⟨fun q text => succeeds_of_report, ?_, fun _ _ => udpEntries_eq_ok_iff, ?_⟩
  · intro capture directory statistics disk r hok q hq
    rcases Extraction.reports_of_run hok q hq with ⟨rfl, report, hreport⟩ | ⟨i, dump, rfl, hdump⟩
    · exact succeeds_of_report hreport
    · exact succeeds_of_report hdump
  · intro h' capture directory statistics disk hbreaks hok
    obtain ⟨o, cs, -, hintake, -⟩ := Extraction.run_failure_eq_none_iff.mp hok
    obtain ⟨entries, hentries, -⟩ := Extraction.intake_fields_eq_iff.mp hintake
    rcases udpEntries_of_breaksOff hbreaks hentries with hmalformed | ⟨first, more, rfl, hfirst⟩
    · exact .inl hmalformed
    · exact .inr (Extraction.run_fields_of_append hentries hfirst hok)

end Tshark

/-! ## A program that fails -/

open CaptureSplit.Text.Utf8 (ofString)

/-- A host with a capture and a program that always ends in the same way. -/
def Host.ofEnding (ending : Ending) : Host where
  disk := ⟨[([ofString "bin"], .directory), ([ofString "bin", ofString "tshark"], .file [] true),
    ([ofString "cap.pcap"], .file [] false)], []⟩
  searchPath := ofString "bin"
  perform _ _ := ending

theorem Host.breaksOff_ofEnding {e e' : Ending} (h : e'.stdout <+: e.stdout)
    (hquiet : e'.stderr = []) : (Host.ofEnding e).BreaksOff (Host.ofEnding e') :=
  ⟨rfl, rfl, fun _ _ => h, fun _ _ => hquiet⟩

/-- The dissection of a UDP packet of one byte. -/
def onePacket : String :=
  "<packet><proto name=\"udp\"><field name=\"udp.stream\" show=\"0\"/>" ++
    "<field name=\"udp.payload\" show=\"aa\"/></proto></packet>"

namespace Tshark

/-- The dissection of two packets breaks off in the second one, without a word. -/
theorem success_checked_by_reports_one_of_two :
    let t : Tshark := ⟨"bin", "rtps"⟩
    let whole : Ending := ⟨.exited 0, ofString (onePacket ++ onePacket), []⟩
    let broken : Ending := ⟨.exited 3, ofString (onePacket ++ "<packet>"), []⟩
    let h := Host.ofEnding whole
    let h' := Host.ofEnding broken
    let capture := ofString "cap.pcap"
    h.BreaksOff h' ∧
      (Extraction.run (t.analyzer h) .fields capture [] .zero h.disk).failure = none ∧
      (Extraction.run (t.analyzer h') .fields capture [] .zero h.disk).failure = none := by
  intro t whole broken h h' capture
  have hbreaks : h.BreaksOff h' := by
    refine Host.breaksOff_ofEnding ?_ rfl
    simp only [whole, broken, Text.Utf8.ofString_append, List.prefix_append_right_inj]
    decide +kernel
  have hok : (Extraction.run (t.analyzer h) .fields capture [] .zero h.disk).failure = none := by
    decide +kernel
  have hread : t.udpEntries h' capture ≠ .error (.dissectorFailed t.program .malformedMarkup) := by
    decide +kernel
  refine ⟨hbreaks, hok, ?_⟩
  rcases (success_checked_by_reports t h).2.2.2 h' capture [] .zero h.disk hbreaks hok with
    hmalformed | ⟨hok', -⟩
  · exact absurd hmalformed hread
  · exact hok'

/-- The program prints a packet, begins another and fails without a word; the packet
is taken as the dissection, and the run goes through. -/
theorem udpEntries_of_failed_program :
    let t : Tshark := ⟨"bin", "rtps"⟩
    let h := Host.ofEnding ⟨.exited 3, ofString (onePacket ++ "<packet>"), []⟩
    let capture := ofString "cap.pcap"
    t.udpEntries h capture = .ok [⟨some "0", some "aa"⟩] ∧
      (Extraction.run (t.analyzer h) .fields capture [] .zero h.disk).failure = none ∧
      ¬ t.Succeeds h (.dissection capture) := by
  intro t h capture
  refine ⟨by decide +kernel, by decide +kernel, ?_⟩
  have hlaunch : t.launch h (.dissection capture) = .ok ⟨[ofString "bin", ofString "tshark"],
      (t.dissectionCommand h capture).arguments,
      ⟨.exited 3, ofString (onePacket ++ "<packet>"), []⟩⟩ := by
    decide +kernel
  rintro ⟨l, hl, hstatus⟩
  obtain rfl := Except.ok.inj (hlaunch.symm.trans hl)
  cases hstatus

end Tshark
end CaptureSplit
