/-
CaptureSplit.Proofs.Modes — the two modes agree.

Given conversations, `Analyzer.Reports` says that an analyzer prints them
as a table and a dump for each, and `Analyzer.Dissects` that it shows their
packets one by one, in any order that keeps the order within each
conversation (`Interleaves`) and with incomplete entries between. In either
case a run takes the same conversations from it: `numbered`, each under its
place in the list (`intake_report`, `intake_fields`).

By fields this is where grouping is undone: what is gathered and what is
numbered have the same packets under each index, and conversations in order
are determined by these. Runs in the two modes then do the same to the disk
and end in the same way, but for the questions that they ask.
-/
import CaptureSplit.Proofs.Intake
import CaptureSplit.Proofs.ReportText

namespace CaptureSplit

/-! ## Conversations by number -/

/-- The conversations, each under its place. -/
def numbered (conversations : List (List Packet)) : List Conversation :=
  (List.range conversations.length).map fun i => ⟨i, conversations[i]?.getD []⟩

theorem mem_numbered_iff {conversations : List (List Packet)} {c : Conversation} :
    c ∈ numbered conversations ↔ conversations[c.index]? = some c.packets := by
  simp only [numbered, List.mem_map, List.mem_range]
  constructor
  · rintro ⟨i, hi, rfl⟩
    simp [hi]
  · intro h
    obtain ⟨hi, -⟩ := List.getElem?_eq_some_iff.mp h
    refine ⟨c.index, hi, ?_⟩
    simp [h]

theorem numbered_ordered {conversations : List (List Packet)}
    (hne : ∀ packets ∈ conversations, packets ≠ []) :
    Buffers.Ordered (numbered conversations) := by
  constructor
  · rw [numbered, List.pairwise_map]
    exact List.pairwise_lt_range
  · intro c hc
    exact hne c.packets (List.mem_of_getElem? (mem_numbered_iff.mp hc))

theorem packetsOf_numbered {conversations : List (List Packet)}
    (hne : ∀ packets ∈ conversations, packets ≠ []) (i : Nat) :
    Buffers.packetsOf i (numbered conversations) = conversations[i]?.getD [] := by
  have hord := numbered_ordered hne
  cases h : conversations[i]? with
  | some packets =>
    have hmem : (⟨i, packets⟩ : Conversation) ∈ numbered conversations := mem_numbered_iff.mpr h
    exact Buffers.packetsOf_of_mem hord hmem
  | none =>
    by_contra hpackets
    obtain ⟨c, hc, rfl, -⟩ := Buffers.exists_mem_of_packetsOf hpackets
    have := mem_numbered_iff.mp hc
    rw [h] at this
    cases this

/-! ## By reports -/

/-- The analyzer prints the conversations: a table with a row for each, and
for each a dump with a row for each packet. -/
structure Analyzer.Reports (a : Analyzer) (capture : Path) (conversations : List (List Packet)) :
    Prop where
  table : ∃ rows report, a.conversationReport capture = .ok report ∧
    Report.Shows 5 rows report ∧ rows.length = conversations.length
  dump : ∀ i packets, conversations[i]? = some packets → ∃ rows report,
    a.followReport capture i = .ok report ∧ Report.Shows 6 rows report ∧
      List.Forall₂ (fun row packet => Packet.Row packet row.toList) rows packets

theorem Extraction.intake_report {a : Analyzer} {capture : Path}
    {conversations : List (List Packet)} (h : a.Reports capture conversations) :
    intake a .report capture = (numbered conversations, none) := by
  obtain ⟨rows, report, hreport, hshows, hrows⟩ := h.table
  simp only [intake, hreport]
  rw [Report.rowCount_of_shows hshows, hrows]
  refine fetch_eq ?_
  intro i hi
  have hi := List.mem_range.mp hi
  obtain ⟨rows, report, hdump, hshows, hpackets⟩ :=
    h.dump i conversations[i] (List.getElem?_eq_getElem hi)
  refine ⟨report, hdump, ?_⟩
  rw [followPackets, Report.rows_of_shows hshows]
  simpa [hi] using Packet.ofLines_eq_ok_iff.mpr hpackets

/-! ## By fields -/

namespace Dissection

/-- The entries show packets with their indices, in order; entries that lack
a field show nothing. -/
inductive Shows : List (Nat × Packet) → List Entry → Prop where
  | nil : Shows [] []
  | pass {e : Entry} {order : List (Nat × Packet)} {entries : List Entry} :
    ¬ e.IsComplete → Shows order entries → Shows order (e :: entries)
  | read {e : Entry} {i : Nat} {packet : Packet} {order : List (Nat × Packet)}
    {entries : List Entry} :
    e.Reads i packet → Shows order entries → Shows ((i, packet) :: order) (e :: entries)

/-- The order has the packets of each conversation in their own order, under
the conversation's place, and no others. -/
def Interleaves (conversations : List (List Packet)) (order : List (Nat × Packet)) : Prop :=
  ∀ i, (order.filter fun x => x.1 = i).map Prod.snd = conversations[i]?.getD []

/-- An entry that gives the index as a plain numeral is one to read. -/
theorem reads_toString {i : Nat} {packet : Packet} {payload : String} (hi : i ≤ maxIndex)
    (h : Packet.Field packet payload.toList) :
    Entry.Reads ⟨some (toString i), some payload⟩ i packet :=
  ⟨toString i, payload, rfl, index_toString hi, h⟩

theorem filterMap_packetIn?_of_shows {order : List (Nat × Packet)} {entries : List Entry}
    (h : Shows order entries) (i : Nat) :
    entries.filterMap (Entry.packetIn? i) = (order.filter fun x => x.1 = i).map Prod.snd := by
  induction h with
  | nil => rfl
  | pass he _ ih => rw [List.filterMap_cons_none (packetIn?_of_not_isComplete he i), ih]
  | @read _ j _ _ _ he _ ih =>
    rw [List.filterMap_cons, packetIn?_of_reads he, ih]
    by_cases hj : j = i <;> simp [hj]

theorem reads_of_shows {order : List (Nat × Packet)} {entries : List Entry}
    (h : Shows order entries) :
    ∀ e ∈ entries, e.IsComplete → ∃ i packet, e.Reads i packet := by
  induction h with
  | nil =>
    intro e he
    cases he
  | pass hnot _ ih => exact List.forall_mem_cons.mpr ⟨fun hc => absurd hc hnot, ih⟩
  | read hreads _ ih => exact List.forall_mem_cons.mpr ⟨fun _ => ⟨_, _, hreads⟩, ih⟩

/-- Whatever the order of the packets, grouping finds the conversations. -/
theorem group_of_shows {conversations : List (List Packet)} {order : List (Nat × Packet)}
    {entries : List Entry} (hne : ∀ packets ∈ conversations, packets ≠ [])
    (horder : Interleaves conversations order) (h : Shows order entries) :
    group entries = .ok (numbered conversations) := by
  obtain ⟨cs, hcs⟩ := exists_groupFrom Buffers.empty (reads_of_shows h)
  have hcs : group entries = .ok cs := hcs
  obtain ⟨hord, hpackets⟩ := group_eq_ok hcs
  have heq : cs = numbered conversations := by
    refine Buffers.eq_of_packetsOf hord (numbered_ordered hne) ?_
    intro i
    rw [hpackets, filterMap_packetIn?_of_shows h, horder, packetsOf_numbered hne]
  rw [hcs, heq]

end Dissection

/-- The analyzer shows the packets of the conversations, in some order. -/
def Analyzer.Dissects (a : Analyzer) (capture : Path) (conversations : List (List Packet)) :
    Prop :=
  ∃ order entries, a.udpEntries capture = .ok entries ∧
    Dissection.Interleaves conversations order ∧ Dissection.Shows order entries

theorem Extraction.intake_fields {a : Analyzer} {capture : Path}
    {conversations : List (List Packet)} (hne : ∀ packets ∈ conversations, packets ≠ [])
    (h : a.Dissects capture conversations) :
    intake a .fields capture = (numbered conversations, none) := by
  obtain ⟨order, entries, hentries, horder, hshows⟩ := h
  simp only [intake, hentries, Dissection.group_of_shows hne horder hshows]

/-! ## Both -/

namespace Extraction

/-- Whether an analyzer prints conversations or shows their packets, runs
end alike, leave the same files, count the same and show the same dots. -/
theorem run_report_eq_run_fields {a b : Analyzer} {capture : Path}
    {conversations : List (List Packet)} (hne : ∀ packets ∈ conversations, packets ≠ [])
    (hreports : a.Reports capture conversations) (hdissects : b.Dissects capture conversations)
    (directory : Path) (statistics : Statistics) (disk : Disk) :
    let byReports := run a .report capture directory statistics disk
    let byFields := run b .fields capture directory statistics disk
    byReports.failure = byFields.failure ∧
      byReports.progress.disk = byFields.progress.disk ∧
      byReports.progress.statistics = byFields.progress.statistics ∧
      byReports.progress.dots = byFields.progress.dots := by
  intro byReports byFields
  have hunasked : byReports.unasked = byFields.unasked := by
    cases ho : Output.ofCapture capture directory with
    | error e => simp only [byReports, byFields, run, ho]
    | ok o =>
      simp only [byReports, byFields, run_unasked _ _ statistics disk ho,
        intake_report hreports, intake_fields hne hdissects]
  refine ⟨?_, ?_, ?_, ?_⟩
  · exact congrArg (fun r => r.failure) hunasked
  · exact congrArg (fun r => r.progress.disk) hunasked
  · exact congrArg (fun r => r.progress.statistics) hunasked
  · exact congrArg (fun r => r.progress.dots) hunasked

/-- Two conversations, one with an empty packet, in other notations and
another order by fields. -/
theorem run_report_eq_run_fields_two_conversations :
    let titles := ["=", "UDP Conversations", "Filter:", "|", "|"]
    let table := Report.printed (titles ++ ["a", "b"] ++ ["="])
    let header := ["", "=", "Follow: udp,raw", "Filter:", "Node 0:", "Node 1:"]
    let first := Report.printed (header ++ ["0a 0B", ""] ++ ["="])
    let second := Report.printed (header ++ ["\tff"] ++ ["="])
    let entries : List Dissection.Entry :=
      [⟨some (toString 1), some "FF"⟩, ⟨some (toString 0), some "0A:0b"⟩, ⟨none, some "zz"⟩,
        ⟨some (toString 0), some ""⟩]
    let a : Analyzer := ⟨fun _ => .ok table,
      fun _ i => .ok (if i = 0 then first else second), fun _ => .ok entries⟩
    let capture := Text.Utf8.ofString "a.pcap"
    let byReports := run a .report capture [] .zero ⟨[], []⟩
    let byFields := run a .fields capture [] .zero ⟨[], []⟩
    byReports.failure = byFields.failure ∧
      byReports.progress.disk = byFields.progress.disk ∧
      byReports.progress.statistics = byFields.progress.statistics ∧
      byReports.progress.dots = byFields.progress.dots := by
  intro titles table header first second entries a capture
  have hreports : a.Reports capture [[[0x0A, 0x0B], []], [[0xFF]]] := by
    refine ⟨⟨["a", "b"], table, rfl, ⟨titles, "=", rfl, by decide, rfl⟩, rfl⟩, ?_⟩
    intro i packets hi
    match i with
    | 0 =>
      obtain rfl : [[0x0A, 0x0B], []] = packets := Option.some.inj hi
      refine ⟨["0a 0B", ""], first, rfl, ⟨header, "=", rfl, by decide, rfl⟩, ?_⟩
      exact Packet.ofLines_eq_ok_iff.mp rfl
    | 1 =>
      obtain rfl : [[0xFF]] = packets := Option.some.inj hi
      refine ⟨["\tff"], second, rfl, ⟨header, "=", rfl, by decide, rfl⟩, ?_⟩
      exact Packet.ofLines_eq_ok_iff.mp rfl
    | _ + 2 => cases hi
  have hdissects : a.Dissects capture [[[0x0A, 0x0B], []], [[0xFF]]] := by
    refine ⟨[(1, [0xFF]), (0, [0x0A, 0x0B]), (0, [])], entries, rfl, ?_, ?_⟩
    · intro i
      match i with
      | 0 => rfl
      | 1 => rfl
      | _ + 2 => simp
    · refine .read ?_ (.read ?_ (.pass ?_ (.read ?_ .nil)))
      · exact Dissection.reads_toString (by decide) (Packet.ofField_eq_ok_iff.mp rfl)
      · exact Dissection.reads_toString (by decide) (Packet.ofField_eq_ok_iff.mp rfl)
      · rintro ⟨stream, payload, heq⟩
        cases heq
      · exact Dissection.reads_toString (by decide) (Packet.ofField_eq_ok_iff.mp rfl)
  exact run_report_eq_run_fields (by decide) hreports hdissects [] .zero ⟨[], []⟩

end Extraction
end CaptureSplit
