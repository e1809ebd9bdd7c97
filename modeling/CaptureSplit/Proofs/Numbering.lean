/-
CaptureSplit.Proofs.Numbering — the number of a stream, from the text of an
entry to the name of a file.

`Denotes n text` tells without a reader which texts stand for the number `n`:
digits of this value, however many zeros they begin with, a plus sign in front
or none, and white space around. The value is a natural number and has to be
one of 64 bits; there is nothing that could wrap.

What an entry does to a grouping is one of two things, wherever it stands: its
packet is added under a number (`Entry.TakenAs`), or the grouping ends
(`Entry.Refused`). Which one is told by `Denotes` alone (`takenAs_iff`,
`refused_iff`). So entries are in one conversation where their texts denote one
number (`exists_joins_and_joins`), and this number, in decimal, is what stands
in the name of the packet's file (`indices_read_exactly`).
-/
import CaptureSplit.Proofs.Grouping
import CaptureSplit.Proofs.Runs

namespace CaptureSplit

namespace Dissection

open CaptureSplit.Text (isWhiteSpace)

/-! ## Texts for a number -/

/-- The text stands for the number `n`: one or more ASCII digits of this value,
behind a plus sign or none, with white space around them. -/
def Denotes (n : Nat) (text : List Char) : Prop :=
  ∃ front sign digits back, text = front ++ (sign ++ digits) ++ back ∧
    (∀ c ∈ front, isWhiteSpace c = true) ∧ (∀ c ∈ back, isWhiteSpace c = true) ∧
    (sign = [] ∨ sign = ['+']) ∧ Text.Decimal.IsNumeral n digits ∧ n < 2 ^ 64

theorem isWhiteSpace_of_signed {n : Nat} {sign digits : List Char}
    (hsign : sign = [] ∨ sign = ['+']) (hdigits : Text.Decimal.IsNumeral n digits) :
    ∀ c ∈ sign ++ digits, isWhiteSpace c = false := by
  intro c hc
  rcases List.mem_append.mp hc with hc | hc
  · rcases hsign with rfl | rfl
    · cases hc
    · rw [List.mem_singleton.mp hc]
      decide
  · exact Text.isWhiteSpace_of_isDigit (hdigits.2.1 c hc)

theorem denotes_iff_index {n : Nat} {text : List Char} : Denotes n text ↔ Index n text := by
  have hbound : n ≤ maxIndex ↔ n < 2 ^ 64 := by
    simp only [maxIndex, UInt64.size]
    omega
  unfold Index
  rw [hbound]
  constructor
  · rintro ⟨front, sign, digits, back, rfl, hfront, hback, hsign, hdigits, hn⟩
    rw [Text.trim_append hfront (isWhiteSpace_of_signed hsign hdigits) hback]
    rcases hsign with rfl | rfl
    · exact ⟨digits, .inl rfl, hdigits, hn⟩
    · exact ⟨digits, .inr rfl, hdigits, hn⟩
  · rintro ⟨digits, hinner, hdigits, hn⟩
    obtain ⟨front, back, htext, hfront, hback⟩ := (Text.trimmed_trim text).around
    rcases hinner with hinner | hinner
    · rw [hinner] at htext
      exact ⟨front, [], digits, back, htext, hfront, hback, .inl rfl, hdigits, hn⟩
    · rw [hinner] at htext
      exact ⟨front, ['+'], digits, back, htext, hfront, hback, .inr rfl, hdigits, hn⟩

theorem denotes_iff_streamIndex? {n : Nat} {text : String} :
    Denotes n text.toList ↔ streamIndex? text = some n := by
  rw [denotes_iff_index, streamIndex?_eq_some_iff]

/-- No text stands for two numbers. -/
theorem denotes_unique {n m : Nat} {text : String} (hn : Denotes n text.toList)
    (hm : Denotes m text.toList) : n = m := by
  rw [denotes_iff_streamIndex?] at hn hm
  exact Option.some.inj (hn.symm.trans hm)

theorem reads_iff {stream payload : String} {n : Nat} {packet : Packet} :
    Entry.Reads ⟨some stream, some payload⟩ n packet ↔
      Denotes n stream.toList ∧ Packet.ofField payload = .ok packet := by
  rw [denotes_iff_index, Packet.ofField_eq_ok_iff]
  constructor
  · rintro ⟨_, _, heq, hn, hpacket⟩
    cases heq
    exact ⟨hn, hpacket⟩
  · rintro ⟨hn, hpacket⟩
    exact ⟨stream, payload, rfl, hn, hpacket⟩

/-! ## What an entry does to a grouping -/

/-- Wherever the entry stands, its packet is added under the number `n`. -/
def Entry.TakenAs (e : Entry) (n : Nat) (packet : Packet) : Prop :=
  ∀ gathered rest, groupFrom gathered (e :: rest) = groupFrom (gathered.add n packet) rest

/-- Wherever the entry stands, the grouping ends there for its stream index. -/
def Entry.Refused (e : Entry) (stream : String) : Prop :=
  ∀ gathered rest, groupFrom gathered (e :: rest) = .error (.badStreamIndex stream)

theorem takenAs_iff_reads {e : Entry} {n : Nat} {packet : Packet} :
    e.TakenAs n packet ↔ e.Reads n packet := by
  constructor
  · intro h
    -- alone, the entry makes one conversation, and its packet is found there
    have hone : group [e] = .ok [⟨n, [packet]⟩] := h Buffers.empty []
    have hpackets := (group_eq_ok hone).2 n
    rw [Buffers.packetsOf, if_pos rfl, List.filterMap_cons, List.filterMap_nil] at hpackets
    cases hin : e.packetIn? n with
    | none => simp [hin] at hpackets
    | some found =>
      obtain rfl : packet = found := by simpa [hin] using hpackets
      exact packetIn?_eq_some_iff.mp hin
  · intro h gathered rest
    exact groupFrom_cons_of_reads h rest gathered

theorem takenAs_iff {stream payload : String} {packet : Packet}
    (hpacket : Packet.ofField payload = .ok packet) (n : Nat) :
    Entry.TakenAs ⟨some stream, some payload⟩ n packet ↔ Denotes n stream.toList := by
  rw [takenAs_iff_reads, reads_iff]
  exact and_iff_left hpacket

theorem refused_iff {stream payload : String} {packet : Packet}
    (hpacket : Packet.ofField payload = .ok packet) :
    Entry.Refused ⟨some stream, some payload⟩ stream ↔ ∀ n, ¬ Denotes n stream.toList := by
  constructor
  · intro h n hn
    have hone := h Buffers.empty []
    rw [(takenAs_iff hpacket n).mpr hn Buffers.empty []] at hone
    cases hone
  · intro h gathered rest
    refine groupFrom_cons_of_fails (.index fun n hn => ?_) rest gathered
    exact h n (denotes_iff_index.mpr hn)

/-! ## Conversations -/

/-- The packet of the entry at a position is in the conversation, behind those of
the earlier entries of the same number. -/
def Joins (entries : List Entry) (position : Nat) (c : Conversation) : Prop :=
  ∃ stream payload packet, entries[position]? = some ⟨some stream, some payload⟩ ∧
    Denotes c.index stream.toList ∧ Packet.ofField payload = .ok packet ∧
    c.packets[earlier entries position c.index]? = some packet

theorem exists_joins {entries : List Entry} {cs : List Conversation}
    (h : group entries = .ok cs) {position : Nat} {stream payload : String}
    (hat : entries[position]? = some ⟨some stream, some payload⟩) :
    ∃ c ∈ cs, Joins entries position c ∧ Denotes c.index stream.toList := by
  have hvalid := reads_of_groupFrom_eq_ok h
  obtain ⟨n, packet, hreads⟩ := hvalid _ (List.mem_of_getElem? hat) ⟨stream, payload, rfl⟩
  have hplace := (getElem?_packetsOf_iff hvalid h).mpr ⟨position, _, hat, hreads, rfl⟩
  have hne : Buffers.packetsOf n cs ≠ [] := by
    intro hnil
    simp [hnil] at hplace
  obtain ⟨c, hc, rfl, hpackets⟩ := Buffers.exists_mem_of_packetsOf hne
  rw [← hpackets] at hplace
  obtain ⟨hn, hpacket⟩ := reads_iff.mp hreads
  exact ⟨c, hc, ⟨stream, payload, packet, hat, hn, hpacket, hplace⟩, hn⟩

/-- A conversation is the only one with its number. -/
theorem eq_of_index_eq {cs : List Conversation} (hord : Buffers.Ordered cs) {c c' : Conversation}
    (hc : c ∈ cs) (hc' : c' ∈ cs) (h : c.index = c'.index) : c = c' := by
  have hpackets : c.packets = c'.packets := by
    rw [← Buffers.packetsOf_of_mem hord hc, h, Buffers.packetsOf_of_mem hord hc']
  cases c
  cases c'
  simp_all

theorem exists_joins_and_joins {entries : List Entry} {cs : List Conversation}
    (h : group entries = .ok cs) {k k' : Nat} {stream payload stream' payload' : String}
    (hat : entries[k]? = some ⟨some stream, some payload⟩)
    (hat' : entries[k']? = some ⟨some stream', some payload'⟩) :
    ∃ c ∈ cs, ∃ c' ∈ cs, Joins entries k c ∧ Joins entries k' c' ∧
      (c = c' ↔ ∃ n, Denotes n stream.toList ∧ Denotes n stream'.toList) := by
  obtain ⟨c, hc, hjoins, hn⟩ := exists_joins h hat
  obtain ⟨c', hc', hjoins', hn'⟩ := exists_joins h hat'
  refine ⟨c, hc, c', hc', hjoins, hjoins', ?_⟩
  constructor
  · rintro rfl
    exact ⟨c.index, hn, hn'⟩
  · rintro ⟨n, hboth, hboth'⟩
    have hindex : c.index = c'.index :=
      (denotes_unique hn hboth).trans (denotes_unique hboth' hn')
    exact eq_of_index_eq (group_eq_ok h).1 hc hc' hindex

end Dissection

namespace Extraction

open CaptureSplit.Dissection (Denotes Joins earlier group)
open CaptureSplit.Text.Utf8 (ofString toStringLossy)

/-! ## Files -/

theorem entryFile_iff {directory : Path} {name : Name} {entries : List Dissection.Entry} {k : Nat}
    {path : Path} {content : Bytes} :
    EntryFile directory name entries k path content ↔ ∃ stream payload n,
      entries[k]? = some ⟨some stream, some payload⟩ ∧ Denotes n stream.toList ∧
        Packet.ofField payload = .ok content ∧
        path = directory.join (ofString (toStringLossy name ++ "-conv-" ++ toString n ++
          "-packet-" ++ toString (earlier entries k n) ++ ".dat")) := by
  constructor
  · rintro ⟨e, n, hat, hreads, hpath⟩
    obtain ⟨stream, payload, rfl, -⟩ := id hreads
    obtain ⟨hn, hpacket⟩ := Dissection.reads_iff.mp hreads
    exact ⟨stream, payload, n, hat, hn, hpacket, hpath⟩
  · rintro ⟨stream, payload, n, hat, hn, hpacket, hpath⟩
    exact ⟨_, n, hat, Dissection.reads_iff.mpr ⟨hn, hpacket⟩, hpath⟩

/-- The files of a run by fields are those of the entries that have both
fields. -/
theorem mem_filesOf_fields_iff {a : Analyzer} {capture : Path} {name : Name} (directory : Path)
    {entries : List Dissection.Entry} {cs : List Conversation}
    (hname : capture.fileName? = some name)
    (hentries : a.udpEntries capture = .ok entries) (hcs : group entries = .ok cs)
    {path : Path} {content : Bytes} :
    (path, content) ∈ filesOf a .fields capture directory ↔
      ∃ k, EntryFile directory name entries k path content := by
  have hintake : intake a .fields capture = (cs, none) :=
    intake_fields_eq_iff.mpr ⟨entries, hentries, hcs⟩
  unfold filesOf
  rw [Output.ofCapture_eq hname, hintake]
  exact mem_files_of_group_iff (Dissection.reads_of_groupFrom_eq_ok hcs) hcs directory name

/-- Of an entry with a payload that can be read, the stream counts as the number
that its text denotes, and a text that denotes none ends the grouping.

Where a grouping does not end early, two entries are in one conversation if and
only if their texts denote one number, and the files that a run makes are those
of the entries, each with this number in its name. -/
theorem indices_read_exactly :
    (∀ stream payload packet, Packet.ofField payload = .ok packet →
      (∀ n, Dissection.Entry.TakenAs ⟨some stream, some payload⟩ n packet ↔
        Denotes n stream.toList) ∧
      (Dissection.Entry.Refused ⟨some stream, some payload⟩ stream ↔
        ∀ n, ¬ Denotes n stream.toList)) ∧
    ∀ entries cs, group entries = .ok cs →
      (∀ k k' stream payload stream' payload',
        entries[k]? = some ⟨some stream, some payload⟩ →
        entries[k']? = some ⟨some stream', some payload'⟩ →
        ∃ c ∈ cs, ∃ c' ∈ cs, Joins entries k c ∧ Joins entries k' c' ∧
          (c = c' ↔ ∃ n, Denotes n stream.toList ∧ Denotes n stream'.toList)) ∧
      ∀ (a : Analyzer) capture directory o, Output.ofCapture capture directory = .ok o →
        a.udpEntries capture = .ok entries → ∀ path content,
          (path, content) ∈ filesOf a .fields capture directory ↔ ∃ k stream payload n,
            entries[k]? = some ⟨some stream, some payload⟩ ∧ Denotes n stream.toList ∧
              Packet.ofField payload = .ok content ∧
              path = o.directory.join (ofString (o.captureName ++ "-conv-" ++ toString n ++
                "-packet-" ++ toString (earlier entries k n) ++ ".dat")) := by
  refine ⟨fun stream payload packet hpacket => ?_, fun entries cs hcs => ⟨?_, ?_⟩⟩
  · exact ⟨Dissection.takenAs_iff hpacket, Dissection.refused_iff hpacket⟩
  · intro k k' stream payload stream' payload' hat hat'
    exact Dissection.exists_joins_and_joins hcs hat hat'
  · intro a capture directory o ho hentries path content
    obtain ⟨name, hname, rfl⟩ := Output.exists_of_ofCapture ho
    rw [mem_filesOf_fields_iff directory hname hentries hcs]
    simp only [entryFile_iff]

/-- The greatest index with zeros, a plus sign and white space, the same without,
and texts that denote no index: the next number, a sign that is not taken, digits
of another script, white space between digits, no digits. -/
theorem indices_read_exactly_at_the_bound :
    let most := "\u00a0+0018446744073709551615\n"
    let entries : List Dissection.Entry :=
      [⟨some most, some "aa"⟩, ⟨some "07", some "bb"⟩, ⟨some "18446744073709551615", some "cc"⟩]
    let a : Analyzer := ⟨fun _ => .ok "", fun _ _ => .ok "", fun _ => .ok entries⟩
    Dissection.Entry.TakenAs ⟨some most, some "aa"⟩ 18446744073709551615 [0xAA] ∧
      (∀ stream ∈ ["18446744073709551616", "-0", "٣", "1 2", "+", ""],
        Dissection.Entry.Refused ⟨some stream, some "aa"⟩ stream) ∧
      (∃ cs, group entries = .ok cs ∧ ∃ c ∈ cs, Joins entries 0 c ∧ Joins entries 2 c) ∧
      (ofString "a.pcap-conv-18446744073709551615-packet-1.dat", [0xCC]) ∈
        filesOf a .fields (ofString "a.pcap") [] := by
  intro most entries a
  obtain ⟨htexts, hgrouped⟩ := indices_read_exactly
  have hpayload : Packet.ofField "aa" = .ok [0xAA] := by decide +kernel
  have hmost : Denotes 18446744073709551615 most.toList :=
    Dissection.denotes_iff_streamIndex?.mpr (by decide +kernel)
  have hlast : Denotes 18446744073709551615 "18446744073709551615".toList :=
    Dissection.denotes_iff_streamIndex?.mpr (by decide +kernel)
  have hgroup : group entries =
      .ok [⟨7, [[0xBB]]⟩, ⟨18446744073709551615, [[0xAA], [0xCC]]⟩] := by decide +kernel
  obtain ⟨hshared, hfiles⟩ := hgrouped entries _ hgroup
  refine ⟨((htexts most "aa" _ hpayload).1 _).mpr hmost, ?_, ?_, ?_⟩
  · intro stream hstream
    have hnone : ∀ text ∈ ["18446744073709551616", "-0", "٣", "1 2", "+", ""],
        Dissection.streamIndex? text = none := by decide +kernel
    refine ((htexts stream "aa" _ hpayload).2).mpr fun n hn => ?_
    rw [Dissection.denotes_iff_streamIndex?, hnone stream hstream] at hn
    cases hn
  · obtain ⟨c, hc, c', -, hfirst, hthird, hsame⟩ := hshared 0 2 _ _ _ _ rfl rfl
    obtain rfl := hsame.mpr ⟨_, hmost, hlast⟩
    exact ⟨_, hgroup, c, hc, hfirst, hthird⟩
  · refine (hfiles a (ofString "a.pcap") [] ⟨[], "a.pcap"⟩ (by decide +kernel) rfl _ _).mpr ?_
    exact ⟨2, _, _, _, rfl, hlast, by decide +kernel, by decide +kernel⟩

end Extraction
end CaptureSplit
