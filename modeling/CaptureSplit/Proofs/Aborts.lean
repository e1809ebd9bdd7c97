/-
CaptureSplit.Proofs.Aborts — what a run that fails leaves behind.

By reports, a run that has its table fails at one conversation
(`StepFails`): the conversation is not dumped, a row of its dump cannot be
read, or one of its files cannot be made. What was done for the conversations
before it stays, nothing is asked for behind it, and only a file that cannot
be made lets packets of its own stand (`run_report_aborted`).

By fields, everything is read before anything is written. A run that meets an
entry it cannot read leaves all as it was; if there is none, only a file can
stop it, and the packets before this one, by stream and number, are written
(`run_fields_all_or_nothing`).
-/
import CaptureSplit.Proofs.Stopping

namespace CaptureSplit

/-! ## Files beyond the last -/

/-- Places of packets that are not among those made are left alone. -/
theorem Output.find?_of_wrote {o : Output} {before after : Disk} {cs : List Conversation}
    (h : before.Wrote after fun path content => (path, content) ∈ cs.flatMap o.files) {i j : Nat}
    (hnot : ∀ c ∈ cs, c.index = i → c.packets.length ≤ j) {l : Location}
    (hl : before.resolve (o.packetPath i j) = .ok l) : after.find? l = before.find? l := by
  refine h.keeps l ?_
  intro path content hmem hpath
  obtain ⟨c, hc, hmem⟩ := List.mem_flatMap.mp hmem
  obtain ⟨n, hn, rfl⟩ := Output.mem_files_iff.mp hmem
  obtain ⟨hindex, rfl⟩ := Disk.resolve_packetPath_inj hpath hl
  have hlt := (List.getElem?_eq_some_iff.mp hn).1
  have hle := hnot c hc hindex
  omega

/-- What stands in a range stands at the place of its number. -/
theorem eq_of_range_eq_append {n i : Nat} {front back : List Nat}
    (h : List.range n = front ++ i :: back) :
    front = List.range front.length ∧ i = front.length ∧ front.length < n := by
  have hlt : front.length < n := by
    have := congrArg List.length h
    simp at this
    omega
  refine ⟨?_, ?_, hlt⟩
  · have := congrArg (List.take front.length) h
    simpa [List.take_range, Nat.min_eq_left (Nat.le_of_lt hlt)] using this.symm
  · have := congrArg (fun l => l[front.length]?) h
    simpa [hlt] using this.symm

namespace Extraction

/-! ## By reports -/

/-- A run cannot do with the conversation `i`: it cannot be had, or it is one
with a first packet that cannot be made; `written` are the packets before
this one. -/
inductive StepFails (a : Analyzer) (o : Output) (capture : Path) (disk : Disk) (i : Nat) :
    List Packet → Failure → Prop where
  | dump {e : Failure} : a.DumpFails capture i e → StepFails a o capture disk i [] e
  | file {written back : List Packet} {packet : Packet} {cause : SystemFault} :
    a.Dumps capture i (written ++ packet :: back) → o.IsWritable disk ⟨i, written⟩ →
    disk.create (o.packetPath i written.length) packet = .error cause →
    StepFails a o capture disk i written (.notWritten (o.packetPath i written.length) cause)

theorem not_dumpFails_of_dumps {a : Analyzer} {capture : Path} {i : Nat} {packets : List Packet}
    (h : a.Dumps capture i packets) (e : Failure) : ¬ a.DumpFails capture i e := by
  obtain ⟨dump, hdump, hrows⟩ := h
  have hok : followPackets dump = .ok packets := Packet.ofLines_eq_ok_iff.mpr hrows
  intro hfails
  cases hfails with
  | call hcall =>
    rw [hdump] at hcall
    cases hcall
  | row hdump' hrows' hfront hrow =>
    obtain rfl := Except.ok.inj (hdump.symm.trans hdump')
    have herror : followPackets dump = .error e :=
      Packet.ofLines_eq_error_iff.mpr ⟨_, _, _, hrows', hfront, hrow⟩
    rw [hok] at herror
    cases herror

theorem dumps_unique {a : Analyzer} {capture : Path} {i : Nat} {packets packets' : List Packet}
    (h : a.Dumps capture i packets) (h' : a.Dumps capture i packets') : packets = packets' := by
  obtain ⟨dump, hdump, hrows⟩ := h
  obtain ⟨dump', hdump', hrows'⟩ := h'
  obtain rfl := Except.ok.inj (hdump.symm.trans hdump')
  exact Except.ok.inj
    ((Packet.ofLines_eq_ok_iff.mpr hrows).symm.trans (Packet.ofLines_eq_ok_iff.mpr hrows'))

/-- What has been had and written has not failed. -/
theorem not_stepFails {a : Analyzer} {o : Output} {capture : Path} {disk : Disk} {c : Conversation}
    (hdumps : a.Dumps capture c.index c.packets) (hwritable : o.IsWritable disk c)
    (written : List Packet) (e : Failure) : ¬ StepFails a o capture disk c.index written e := by
  intro h
  cases h with
  | dump hfails => exact not_dumpFails_of_dumps hdumps e hfails
  | @file _ back packet cause hdumps' hwritten hcause =>
    have hpackets := dumps_unique hdumps hdumps'
    refine (Disk.not_isCreatable_iff packet).mpr ⟨cause, hcause⟩ (hwritable written.length ?_)
    simp [hpackets]

/-- Where a run by reports has its table and fails, it does so at the first
conversation that it cannot do with. -/
theorem run_report_stops {a : Analyzer} {capture directory : Path} {o : Output} {report : String}
    {e : Failure} (statistics : Statistics) (disk : Disk)
    (ho : Output.ofCapture capture directory = .ok o)
    (hreport : a.conversationReport capture = .ok report)
    (hfailure : (run a .report capture directory statistics disk).failure = some e) :
    let r := run a .report capture directory statistics disk
    ∃ done written, done.length < Report.rowCount .conversations report ∧
      done.map Conversation.index = List.range done.length ∧
      (∀ c ∈ done, a.Dumps capture c.index c.packets ∧ o.IsWritable disk c) ∧
      StepFails a o capture disk done.length written e ∧
      (disk.Wrote r.progress.disk fun path content =>
        (path, content) ∈ (done ++ [⟨done.length, written⟩]).flatMap o.files) ∧
      r.progress.statistics = statistics.grown done ∧ r.progress.dots = done.length := by
  intro r
  obtain ⟨done, begun, failure, hends, hstop, hwrote, hstatistics, hdots⟩ :=
    run_ends a .report statistics disk ho
  rw [hstop] at hfailure
  have hintake : intake a .report capture =
      fetch a capture (List.range (Report.rowCount .conversations report)) := by
    simp only [intake, hreport]
  rw [hintake] at hends hfailure
  have hdumps : ∀ c ∈ (fetch a capture (List.range (Report.rowCount .conversations report))).1,
      a.Dumps capture c.index c.packets := dumps_of_mem_fetch
  cases hends with
  | written hall =>
    obtain ⟨i, rest, hrange, hfails⟩ := dumpFails_of_fetch hfailure
    obtain ⟨hindices, hi, hlt⟩ := eq_of_range_eq_append hrange
    rw [List.length_map] at hindices hi hlt
    refine ⟨_, [], hlt, hindices, fun c hc => ⟨hdumps c hc, hall c hc⟩, .dump (hi ▸ hfails), ?_,
      hstatistics, hdots⟩
    simpa [Output.files, Output.filesFrom] using hwrote
  | @stopped _ rest c front back packet cause hsplit hdone hpackets hfront hcause =>
    obtain rfl := Option.some.inj hfailure
    obtain ⟨later, hrange⟩ := prefix_of_fetch a capture
      (List.range (Report.rowCount .conversations report))
    rw [hsplit, List.map_append, List.map_cons, List.append_assoc, List.cons_append] at hrange
    obtain ⟨hindices, hi, hlt⟩ := eq_of_range_eq_append hrange.symm
    rw [List.length_map] at hindices hi hlt
    rw [hsplit] at hdumps
    have hdump := hdumps c (by simp)
    rw [hpackets] at hdump
    rw [hi] at hdump hfront hcause hwrote ⊢
    exact ⟨done, front, hlt, hindices, fun c' hc' => ⟨hdumps c' (by simp [hc']), hdone c' hc'⟩,
      .file hdump hfront hcause, hwrote, hstatistics, hdots⟩

/-- The dumps asked for are those of the conversations saved and of one more. -/
theorem run_report_asked {a : Analyzer} {capture directory : Path} {o : Output} {report : String}
    {statistics : Statistics} {disk : Disk} {k : Nat}
    (ho : Output.ofCapture capture directory = .ok o)
    (hreport : a.conversationReport capture = .ok report)
    (hdots : (run a .report capture directory statistics disk).progress.dots = k)
    (hk : k < Report.rowCount .conversations report) :
    (run a .report capture directory statistics disk).progress.queries =
      Query.conversations capture :: (List.range (k + 1)).map (Query.follow capture) := by
  simp only [run, ho, byReports, hreport] at hdots ⊢
  obtain ⟨n, hn, hqueries, -⟩ := followEach_queries_take a o capture
    (List.range (Report.rowCount .conversations report))
    ((Progress.start disk statistics).asked (.conversations capture))
  obtain rfl : n = k := by
    rw [← hdots, hn]
    exact (Nat.zero_add n).symm
  rw [hqueries, List.take_range, Nat.min_eq_left hk]
  rfl

/-- By reports, a run that has its table and fails does so at the least number
`k` of a conversation that it cannot do with, and with the failure of this
one. It has asked for the dumps up to this one, each once and in order. The
conversations before it are on the disk, in the totals and in dots; of its own
packets those before a file that cannot be made are on the disk; no other
packet has been touched, nor anything else. -/
theorem run_report_aborted {a : Analyzer} {capture directory : Path} {o : Output}
    {report : String} {e : Failure} (statistics : Statistics) (disk : Disk)
    (ho : Output.ofCapture capture directory = .ok o)
    (hreport : a.conversationReport capture = .ok report)
    (hfailure : (run a .report capture directory statistics disk).failure = some e) :
    let r := run a .report capture directory statistics disk
    ∃ k done written, k < Report.rowCount .conversations report ∧
      StepFails a o capture disk k written e ∧
      (∀ i < k, ∀ written' e', ¬ StepFails a o capture disk i written' e') ∧
      done.map Conversation.index = List.range k ∧
      (∀ c ∈ done, a.Dumps capture c.index c.packets) ∧
      r.progress.queries =
        Query.conversations capture :: (List.range (k + 1)).map (Query.follow capture) ∧
      (disk.Wrote r.progress.disk fun path content =>
        (path, content) ∈ (done ++ [⟨k, written⟩]).flatMap o.files) ∧
      (∀ i j, k < i ∨ i = k ∧ written.length ≤ j → ∀ l,
        disk.resolve (o.packetPath i j) = .ok l → r.progress.disk.find? l = disk.find? l) ∧
      r.progress.statistics = statistics.grown done ∧ r.progress.dots = k := by
  intro r
  obtain ⟨done, written, hlt, hindices, hdone, hfails, hwrote, hstatistics, hdots⟩ :=
    run_report_stops statistics disk ho hreport hfailure
  have hindex : ∀ i, (∃ c ∈ done, c.index = i) ↔ i < done.length := by
    intro i
    rw [← List.mem_range, ← hindices, List.mem_map]
  refine ⟨done.length, done, written, hlt, hfails, ?_, hindices, fun c hc => (hdone c hc).1,
    run_report_asked ho hreport hdots hlt, hwrote, ?_, hstatistics, hdots⟩
  · intro i hi
    obtain ⟨c, hc, rfl⟩ := (hindex i).mpr hi
    exact not_stepFails (hdone c hc).1 (hdone c hc).2
  · intro i j hij l hl
    refine Output.find?_of_wrote hwrote ?_ hl
    intro c hc hci
    rcases List.mem_append.mp hc with hc | hc
    · have := (hindex i).mp ⟨c, hc, hci⟩
      omega
    · obtain rfl := List.mem_singleton.mp hc
      have hki : done.length = i := hci
      show written.length ≤ j
      omega

/-- Two conversations, of which the second has a row that is no packet behind
one that is. -/
theorem run_report_aborted_second_row :
    let table := "=\nUDP Conversations\nFilter:\n|\n|\na\nb\n=\n"
    let first := "\n=\nFollow: udp,raw\nFilter:\nNode 0:\nNode 1:\n0a\n=\n"
    let second := "\n=\nFollow: udp,raw\nFilter:\nNode 0:\nNode 1:\n0b\nxyz\n=\n"
    let a : Analyzer := ⟨fun _ => .ok table,
      fun _ i => .ok (if i = 0 then first else second), fun _ => .ok []⟩
    let o : Output := ⟨[], "x.pcap"⟩
    let capture := Text.Utf8.ofString "x.pcap"
    let r := run a .report capture [] .zero ⟨[], []⟩
    ∃ written, StepFails a o capture ⟨[], []⟩ 1 written (.malformedHex "xyz" .oddLength) ∧
      r.progress.queries = [.conversations capture, .follow capture 0, .follow capture 1] ∧
      r.progress.dots = 1 := by
  intro table first second a o capture r
  have ho : Output.ofCapture capture [] = .ok o := rfl
  have hfailure : r.failure = some (.malformedHex "xyz" .oddLength) := by decide +kernel
  have hdots : r.progress.dots = 1 := by decide +kernel
  obtain ⟨k, done, written, -, hfails, -, -, -, hqueries, -, -, -, hk⟩ :=
    run_report_aborted (a := a) .zero ⟨[], []⟩ ho rfl hfailure
  obtain rfl : 1 = k := hdots.symm.trans hk
  exact ⟨written, hfails, hqueries, hdots⟩

/-! ## By fields -/

/-- A run that takes nothing but a failure leaves all as it was. -/
theorem run_of_intake_failure {a : Analyzer} {mode : Mode} {capture : Path} {e : Failure}
    (hintake : intake a mode capture = ([], some e)) (directory : Path) (statistics : Statistics)
    (disk : Disk) : let r := run a mode capture directory statistics disk
    (∃ e', r.failure = some e') ∧ r.progress.disk = disk ∧ r.progress.statistics = statistics ∧
      r.progress.dots = 0 := by
  intro r
  cases ho : Output.ofCapture capture directory with
  | error e' =>
    have hr : r = ⟨some e', .start disk statistics⟩ := by
      simp only [r, run, ho]
    rw [hr]
    exact ⟨⟨e', rfl⟩, rfl, rfl, rfl⟩
  | ok o =>
    have hr : r.unasked = ⟨some e, .start disk statistics⟩ := by
      rw [run_unasked a mode statistics disk ho, hintake]
      rfl
    refine ⟨⟨e, ?_⟩, ?_, ?_, ?_⟩
    · exact congrArg (fun r => r.failure) hr
    · exact congrArg (fun r => r.progress.disk) hr
    · exact congrArg (fun r => r.progress.statistics) hr
    · exact congrArg (fun r => r.progress.dots) hr

/-- An entry that has both fields and cannot be read keeps all from being had. -/
theorem intake_fields_of_not_reads {a : Analyzer} {capture : Path}
    {entries : List Dissection.Entry} {entry : Dissection.Entry}
    (hentries : a.udpEntries capture = .ok entries) (hmem : entry ∈ entries)
    (hcomplete : entry.IsComplete) (hnot : ¬ ∃ i packet, entry.Reads i packet) :
    ∃ e, intake a .fields capture = ([], some e) := by
  simp only [intake, hentries]
  cases hgroup : Dissection.group entries with
  | error e => exact ⟨e, rfl⟩
  | ok cs => exact absurd (Dissection.reads_of_groupFrom_eq_ok hgroup entry hmem hcomplete) hnot

end Extraction

/-- The packet with the number `n` of the stream `i`: that of a complete entry
of this stream with `n` others of the stream before it. -/
def Dissection.IsPacket (entries : List Entry) (i n : Nat) (packet : Packet) : Prop :=
  ∃ k e, entries[k]? = some e ∧ e.Reads i packet ∧ earlier entries k i = n

theorem Buffers.exists_mem_of_getElem? {cs : List Conversation} {i n : Nat} {packet : Packet}
    (hn : (Buffers.packetsOf i cs)[n]? = some packet) :
    ∃ c ∈ cs, c.index = i ∧ c.packets[n]? = some packet := by
  have hne : Buffers.packetsOf i cs ≠ [] := by
    intro hnil
    simp [hnil] at hn
  obtain ⟨c, hc, hindex, hpackets⟩ := Buffers.exists_mem_of_packetsOf hne
  exact ⟨c, hc, hindex, hpackets ▸ hn⟩

/-- Whole conversations and the front of the next one hold the packets before
the one that comes next, by stream and number. -/
theorem Buffers.mem_front_iff {cs done rest : List Conversation} {c : Conversation}
    {front back : List Packet} {packet : Packet} (hord : Buffers.Ordered cs)
    (hsplit : cs = done ++ c :: rest) (hpackets : c.packets = front ++ packet :: back)
    (i n : Nat) (content : Packet) :
    (∃ c' ∈ done ++ [⟨c.index, front⟩], c'.index = i ∧ c'.packets[n]? = some content) ↔
      (i < c.index ∨ i = c.index ∧ n < front.length) ∧
        (Buffers.packetsOf i cs)[n]? = some content := by
  have hc : c ∈ cs := by simp [hsplit]
  have hasc := hord.ascending
  rw [hsplit] at hasc
  obtain ⟨-, hlater, hbefore⟩ := List.pairwise_append.mp hasc
  have hlater := (List.pairwise_cons.mp hlater).1
  constructor
  · rintro ⟨c', hc', rfl, hn⟩
    rcases List.mem_append.mp hc' with hc' | hc'
    · have hmem : c' ∈ cs := by simp [hsplit, hc']
      rw [Buffers.packetsOf_of_mem hord hmem]
      exact ⟨.inl (hbefore c' hc' c (by simp)), hn⟩
    · obtain rfl := List.mem_singleton.mp hc'
      have hlt := (List.getElem?_eq_some_iff.mp hn).1
      refine ⟨.inr ⟨rfl, hlt⟩, ?_⟩
      rw [Buffers.packetsOf_of_mem hord hc, hpackets, List.getElem?_append_left hlt]
      exact hn
  · rintro ⟨hlt | ⟨rfl, hlt⟩, hn⟩
    · obtain ⟨c', hc', rfl, hget⟩ := Buffers.exists_mem_of_getElem? hn
      refine ⟨c', ?_, rfl, hget⟩
      rw [hsplit] at hc'
      rcases List.mem_append.mp hc' with hc' | hc'
      · exact List.mem_append_left _ hc'
      · rcases List.mem_cons.mp hc' with rfl | hc'
        · omega
        · have := hlater c' hc'
          omega
    · rw [Buffers.packetsOf_of_mem hord hc, hpackets, List.getElem?_append_left hlt] at hn
      exact ⟨⟨c.index, front⟩, by simp, rfl, hn⟩

/-- The files of whole conversations and of the front of the next one are those
of the packets before the one that comes next. -/
theorem Output.mem_files_front_iff (o : Output) {cs done rest : List Conversation}
    {c : Conversation} {front back : List Packet} {packet : Packet} (hord : Buffers.Ordered cs)
    (hsplit : cs = done ++ c :: rest) (hpackets : c.packets = front ++ packet :: back)
    (path : Path) (content : Bytes) :
    (path, content) ∈ (done ++ [(⟨c.index, front⟩ : Conversation)]).flatMap o.files ↔
      ∃ j m, (j < c.index ∨ j = c.index ∧ m < front.length) ∧
        (Buffers.packetsOf j cs)[m]? = some content ∧ path = o.packetPath j m := by
  simp only [List.mem_flatMap, mem_files_iff, ← and_assoc,
    ← Buffers.mem_front_iff hord hsplit hpackets]
  constructor
  · rintro ⟨c', hc', m, hm, rfl⟩
    exact ⟨c'.index, m, ⟨c', ⟨hc', rfl⟩, hm⟩, rfl⟩
  · rintro ⟨j, m, ⟨c', ⟨hc', rfl⟩, hm⟩, rfl⟩
    exact ⟨c', hc', m, hm, rfl⟩

/-- Where all conversations can be written, all packets can be made. -/
theorem Output.isCreatable_of_packetsOf {o : Output} {d : Disk} {cs : List Conversation}
    (hall : ∀ c ∈ cs, o.IsWritable d c) {i n : Nat} {packet : Packet}
    (hn : (Buffers.packetsOf i cs)[n]? = some packet) : d.IsCreatable (o.packetPath i n) := by
  obtain ⟨c, hc, rfl, hget⟩ := Buffers.exists_mem_of_getElem? hn
  exact hall c hc n (List.getElem?_eq_some_iff.mp hget).1

namespace Extraction

/-- Where all complete entries can be read, only a file can stop a run by
fields: that of the first packet, by stream and number, that cannot be made. -/
theorem run_fields_stops {a : Analyzer} {capture directory : Path} {o : Output}
    {entries : List Dissection.Entry} (statistics : Statistics) (disk : Disk)
    (ho : Output.ofCapture capture directory = .ok o)
    (hentries : a.udpEntries capture = .ok entries)
    (hvalid : ∀ e ∈ entries, e.IsComplete → ∃ i packet, e.Reads i packet) :
    let r := run a .fields capture directory statistics disk
    (r.failure = none ∧
      ∀ i n packet, Dissection.IsPacket entries i n packet → disk.IsCreatable (o.packetPath i n)) ∨
    ∃ i n packet cause, Dissection.IsPacket entries i n packet ∧
      disk.create (o.packetPath i n) packet = .error cause ∧
      r.failure = some (.notWritten (o.packetPath i n) cause) ∧
      (∀ j m other, j < i ∨ j = i ∧ m < n → Dissection.IsPacket entries j m other →
        disk.IsCreatable (o.packetPath j m)) ∧
      disk.Wrote r.progress.disk fun path content => ∃ j m, (j < i ∨ j = i ∧ m < n) ∧
        Dissection.IsPacket entries j m content ∧ path = o.packetPath j m := by
  intro r
  obtain ⟨cs, hgroup⟩ := Dissection.exists_groupFrom Buffers.empty hvalid
  have hcs : Dissection.group entries = .ok cs := hgroup
  have hord := (Dissection.group_eq_ok hcs).1
  have hpacket : ∀ i n packet, Dissection.IsPacket entries i n packet ↔
      (Buffers.packetsOf i cs)[n]? = some packet :=
    fun i n packet => (Dissection.getElem?_packetsOf_iff hvalid hcs).symm
  have hintake := intake_fields_eq_iff.mpr ⟨entries, hentries, hcs⟩
  obtain ⟨done, begun, failure, hends, hfailure, hwrote, -, -⟩ :=
    run_ends a .fields statistics disk ho
  rw [hintake, Option.or_none] at hfailure
  have hends : o.Ends disk cs done begun failure := by simpa only [hintake] using hends
  simp only [hpacket]
  cases hends with
  | written hall =>
    exact .inl ⟨hfailure, fun i n packet => Output.isCreatable_of_packetsOf hall⟩
  | @stopped _ rest c front back packet cause hsplit hdone hpackets hfront hcause =>
    simp only [o.mem_files_front_iff hord hsplit hpackets] at hwrote
    refine .inr ⟨c.index, front.length, packet, cause, ?_, hcause, hfailure, ?_, hwrote⟩
    · have hc : c ∈ cs := by simp [hsplit]
      rw [Buffers.packetsOf_of_mem hord hc, hpackets]
      simp
    · intro j m other hlt hm
      obtain ⟨c', hc', rfl, hm'⟩ :=
        (Buffers.mem_front_iff hord hsplit hpackets j m other).mpr ⟨hlt, hm⟩
      have hwritable : o.IsWritable disk c' := by
        rcases List.mem_append.mp hc' with hc' | hc'
        · exact hdone c' hc'
        · exact List.mem_singleton.mp hc' ▸ hfront
      exact hwritable m (List.getElem?_eq_some_iff.mp hm').1

/-- By fields, a run that has no entries, or has a complete entry among them
whose index or payload cannot be read, fails and leaves the disk, the totals
and the dots as they were. Where all complete entries can be read, a run goes
through unless a packet cannot be made: then it fails with the first one, by
stream and number, and leaves the packets before it. -/
theorem run_fields_all_or_nothing (a : Analyzer) (capture directory : Path)
    (statistics : Statistics) (disk : Disk) :
    let r := run a .fields capture directory statistics disk
    (((∃ e, a.udpEntries capture = .error e) ∨
        ∃ entries stream payload, a.udpEntries capture = .ok entries ∧
          ⟨some stream, some payload⟩ ∈ entries ∧
            ((∀ i, ¬ Dissection.Index i stream.toList) ∨
              ∀ packet, ¬ Packet.Field packet payload.toList)) →
      (∃ e, r.failure = some e) ∧ r.progress.disk = disk ∧
        r.progress.statistics = statistics ∧ r.progress.dots = 0) ∧
    ∀ o entries, Output.ofCapture capture directory = .ok o →
      a.udpEntries capture = .ok entries →
      (∀ e ∈ entries, e.IsComplete → ∃ i packet, e.Reads i packet) →
      (r.failure = none ∧ ∀ i n packet, Dissection.IsPacket entries i n packet →
        disk.IsCreatable (o.packetPath i n)) ∨
      ∃ i n packet cause, Dissection.IsPacket entries i n packet ∧
        disk.create (o.packetPath i n) packet = .error cause ∧
        r.failure = some (.notWritten (o.packetPath i n) cause) ∧
        (∀ j m other, j < i ∨ j = i ∧ m < n → Dissection.IsPacket entries j m other →
          disk.IsCreatable (o.packetPath j m)) ∧
        disk.Wrote r.progress.disk fun path content => ∃ j m, (j < i ∨ j = i ∧ m < n) ∧
          Dissection.IsPacket entries j m content ∧ path = o.packetPath j m := by
  intro r
  refine ⟨?_, fun o entries ho hentries hvalid =>
    run_fields_stops statistics disk ho hentries hvalid⟩
  rintro (⟨e, he⟩ | ⟨entries, stream, payload, hentries, hmem, hbad⟩)
  · refine run_of_intake_failure (e := e) ?_ directory statistics disk
    simp only [intake, he]
  · have hnot : ¬ ∃ i packet,
        (⟨some stream, some payload⟩ : Dissection.Entry).Reads i packet := by
      rintro ⟨i, packet, stream', payload', heq, hindex, hfield⟩
      injection heq with hstream hpayload
      obtain rfl := Option.some.inj hstream
      obtain rfl := Option.some.inj hpayload
      rcases hbad with hbad | hbad
      · exact hbad i hindex
      · exact hbad packet hfield
    obtain ⟨e, he⟩ := intake_fields_of_not_reads hentries hmem ⟨stream, payload, rfl⟩ hnot
    exact run_of_intake_failure he directory statistics disk

/-- The last of three entries is no payload, and nothing is written; without it,
a directory where the second packet should be lets the first one stand. -/
theorem run_fields_all_or_nothing_last_entry :
    let good : List Dissection.Entry := [⟨some "7", some "0a"⟩, ⟨some "7", some "0b"⟩]
    let bad : Dissection.Entry := ⟨some "0", some "a:bc"⟩
    let a : Analyzer := ⟨fun _ => .ok "", fun _ _ => .ok "", fun _ => .ok (good ++ [bad])⟩
    let b : Analyzer := ⟨fun _ => .ok "", fun _ _ => .ok "", fun _ => .ok good⟩
    let o : Output := ⟨[], "y.pcap"⟩
    let disk : Disk := ⟨[([o.packetPath 7 1], .directory)], []⟩
    let capture := Text.Utf8.ofString "y.pcap"
    (run a .fields capture [] .zero disk).progress.disk = disk ∧
      ∃ i n packet cause, Dissection.IsPacket good i n packet ∧
        (run b .fields capture [] .zero disk).failure =
          some (.notWritten (o.packetPath i n) cause) := by
  intro good bad a b o disk capture
  have hbad := (run_fields_all_or_nothing a capture [] .zero disk).1
    (.inr ⟨_, "0", "a:bc", rfl, by simp [bad], .inr fun packet hfield => by
      have hread := Packet.ofField_eq_ok_iff.mpr hfield
      cases hread⟩)
  refine ⟨hbad.2.1, ?_⟩
  have hvalid : ∀ e ∈ good, e.IsComplete → ∃ i packet, e.Reads i packet := by
    intro e he _
    rcases (by simpa [good] using he : e = _ ∨ e = _) with rfl | rfl
    · exact ⟨7, [0x0A], Dissection.packetIn?_eq_some_iff.mp (by decide)⟩
    · exact ⟨7, [0x0B], Dissection.packetIn?_eq_some_iff.mp (by decide)⟩
  have hfails : (run b .fields capture [] .zero disk).failure ≠ none := by decide +kernel
  rcases (run_fields_all_or_nothing b capture [] .zero disk).2 o good rfl rfl hvalid with
    ⟨hnone, -⟩ | ⟨i, n, packet, cause, hpacket, -, hfailure, -⟩
  · exact absurd hnone hfails
  · exact ⟨i, n, packet, cause, hpacket, hfailure⟩

end Extraction
end CaptureSplit
