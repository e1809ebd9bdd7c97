/-
CaptureSplit.Proofs.Grouping — conversations against the entries they come
from.

`Groups entries cs` says that conversations are the complete entries of a
dissection, put together by stream index: the payloads of each index, in
their order, and nothing else. A stream index may be written in several
ways, so payloads are selected by its value (`Entry.payloadIn?`).

Grouping either yields such conversations or fails at the first entry that
fails by itself (`Entry.Fails`). That no other entry matters is what the
step shows: an entry that does not fail only changes what has been gathered
(`exists_groupFrom_cons`), and whether a later entry fails does not depend
on that. Entries that lack a field can be left out beforehand
(`groupFrom_filter`).
-/
import Mathlib.Algebra.Ring.Nat
import CaptureSplit.Proofs.Gathering

namespace CaptureSplit

namespace Buffers

/-- The number of packets gathered. -/
def total (g : Buffers) : Nat := (g.map fun c => c.packets.length).sum

theorem total_add (i : Nat) (p : Packet) (g : Buffers) : (add i p g).total = g.total + 1 := by
  induction g with
  | nil => rfl
  | cons c g ih =>
    unfold total at ih ⊢
    rw [add]
    split
    · simp [Nat.add_comm]
    · split
      · simp [Nat.add_right_comm]
      · simp [ih, Nat.add_assoc]

end Buffers

namespace Dissection

/-! ## Complete entries -/

instance : DecidablePred Entry.IsComplete
  | ⟨some stream, some payload⟩ => .isTrue ⟨stream, payload, rfl⟩
  | ⟨some _, none⟩ => .isFalse (by simp [Entry.IsComplete])
  | ⟨none, _⟩ => .isFalse (by simp [Entry.IsComplete])

/-- The payload of an entry of a stream, if it is one that has both fields. -/
def Entry.payloadIn? (i : Nat) : Entry → Option String
  | ⟨some stream, some payload⟩ => if streamIndex? stream = some i then some payload else none
  | _ => none

/-- The payloads of a stream, in order. -/
def payloadsOf (i : Nat) (entries : List Entry) : List String :=
  entries.filterMap (Entry.payloadIn? i)

theorem payloadIn?_eq_some_iff {e : Entry} {i : Nat} {payload : String} :
    e.payloadIn? i = some payload ↔
      ∃ stream, e = ⟨some stream, some payload⟩ ∧ Index i stream.toList := by
  simp only [← streamIndex?_eq_some_iff]
  match e with
  | ⟨some stream, some other⟩ =>
    by_cases hi : streamIndex? stream = some i
    · simp [Entry.payloadIn?, hi, and_comm]
    · simp [Entry.payloadIn?, hi]
  | ⟨some _, none⟩ => simp [Entry.payloadIn?]
  | ⟨none, _⟩ => simp [Entry.payloadIn?]

/-- The packet of an entry is what its payload reads as. -/
theorem packetIn?_eq_bind (i : Nat) (e : Entry) :
    e.packetIn? i = (e.payloadIn? i).bind fun payload => (Packet.ofField payload).toOption := by
  match e with
  | ⟨some stream, some payload⟩ =>
    rw [Entry.packetIn?, Entry.payloadIn?]
    split <;> rfl
  | ⟨some _, none⟩ => rfl
  | ⟨none, _⟩ => rfl

/-- The packets of a stream are what its payloads read as. -/
theorem filterMap_packetIn? (i : Nat) (entries : List Entry) :
    entries.filterMap (Entry.packetIn? i) =
      (payloadsOf i entries).filterMap fun payload => (Packet.ofField payload).toOption := by
  rw [payloadsOf, List.filterMap_filterMap]
  exact List.filterMap_congr fun e _ => packetIn?_eq_bind i e

/-! ## What grouping yields -/

/-- The conversations are the complete entries, put together by stream. -/
structure Groups (entries : List Entry) (cs : List Conversation) : Prop where
  ascending : cs.Pairwise fun c c' => c.index < c'.index
  nonempty : ∀ c ∈ cs, c.packets ≠ []
  index_iff : ∀ i, (∃ c ∈ cs, c.index = i) ↔
    ∃ stream payload, ⟨some stream, some payload⟩ ∈ entries ∧ Index i stream.toList
  /-- Each packet is what the payload in its place reads as. -/
  packets : ∀ c ∈ cs, List.Forall₂ (fun payload packet => Packet.Field packet payload.toList)
    (payloadsOf c.index entries) c.packets
  total : (cs.map fun c => c.packets.length).sum = (entries.filter fun e => e.IsComplete).length

/-- Payloads that can all be read have a packet each. -/
theorem forall₂_packets {payloads : List String}
    (h : ∀ payload ∈ payloads, ∃ packet, Packet.Field packet payload.toList) :
    List.Forall₂ (fun payload packet => Packet.Field packet payload.toList) payloads
      (payloads.filterMap fun payload => (Packet.ofField payload).toOption) := by
  induction payloads with
  | nil => exact .nil
  | cons payload payloads ih =>
    obtain ⟨⟨packet, hpacket⟩, hrest⟩ := List.forall_mem_cons.mp h
    rw [List.filterMap_cons, Packet.ofField_eq_ok_iff.mpr hpacket]
    exact .cons hpacket (ih hrest)

theorem forall₂_payloadsOf {entries : List Entry}
    (h : ∀ e ∈ entries, e.IsComplete → ∃ i packet, e.Reads i packet) (i : Nat) :
    List.Forall₂ (fun payload packet => Packet.Field packet payload.toList)
      (payloadsOf i entries) (entries.filterMap (Entry.packetIn? i)) := by
  rw [filterMap_packetIn?]
  refine forall₂_packets fun payload hpayload => ?_
  obtain ⟨e, he, hin⟩ := List.mem_filterMap.mp hpayload
  obtain ⟨stream, rfl, -⟩ := payloadIn?_eq_some_iff.mp hin
  obtain ⟨j, packet, _, _, heq, -, hfield⟩ := h _ he ⟨stream, payload, rfl⟩
  obtain rfl : payload = _ := Option.some.inj (congrArg Entry.payload heq)
  exact ⟨packet, hfield⟩

/-- A stream has packets where it has entries that have both fields. -/
theorem packetsOf_ne_nil_iff {entries : List Entry} {cs : List Conversation}
    (h : group entries = .ok cs) (i : Nat) :
    Buffers.packetsOf i cs ≠ [] ↔
      ∃ stream payload, ⟨some stream, some payload⟩ ∈ entries ∧ Index i stream.toList := by
  have hlength := (forall₂_payloadsOf (reads_of_groupFrom_eq_ok h) i).length_eq
  rw [(group_eq_ok h).2, ← List.length_pos_iff, ← hlength, List.length_pos_iff_exists_mem]
  simp only [payloadsOf, List.mem_filterMap, payloadIn?_eq_some_iff]
  constructor
  · rintro ⟨payload, e, he, stream, rfl, hi⟩
    exact ⟨stream, payload, he, hi⟩
  · rintro ⟨stream, payload, he, hi⟩
    exact ⟨payload, _, he, stream, rfl, hi⟩

theorem total_of_groupFrom {entries : List Entry} : ∀ {g g' : Buffers},
    groupFrom g entries = .ok g' →
      g'.total = g.total + (entries.filter fun e => e.IsComplete).length := by
  induction entries with
  | nil =>
    intro g g' h
    obtain rfl := Except.ok.inj h
    rfl
  | cons e entries ih =>
    intro g g' h
    rcases groupFrom_cons_eq_ok h with ⟨hnot, h⟩ | ⟨i, packet, hreads, h⟩
    · rw [ih h, List.filter_cons_of_neg (by simpa using hnot)]
    · have hcomplete : e.IsComplete := by
        obtain ⟨stream, payload, heq, -⟩ := hreads
        exact ⟨stream, payload, heq⟩
      rw [ih h, Buffers.total_add, List.filter_cons_of_pos (by simpa using hcomplete),
        List.length_cons]
      omega

/-- What is gathered under an index is the conversation of that index. -/
theorem mem_iff_packetsOf {cs : List Conversation} (hord : Buffers.Ordered cs) {i : Nat}
    {packets : List Packet} :
    ⟨i, packets⟩ ∈ cs ↔ packets ≠ [] ∧ Buffers.packetsOf i cs = packets := by
  constructor
  · intro h
    exact ⟨hord.nonempty _ h, Buffers.packetsOf_of_mem hord h⟩
  · rintro ⟨hne, rfl⟩
    obtain ⟨c, hc, rfl, hpackets⟩ := Buffers.exists_mem_of_packetsOf hne
    rw [← hpackets]
    exact hc

/-- Where grouping succeeds, nothing is lost, added or put in another order:
each conversation has the packets that the complete entries of its stream
read as. So it depends on these entries only. -/
theorem conversations_of_entries {entries : List Entry} {cs : List Conversation}
    (h : group entries = .ok cs) :
    Groups entries cs ∧
      ∀ entries' cs', group entries' = .ok cs' →
        ∀ i, payloadsOf i entries = payloadsOf i entries' →
          ∀ packets, ⟨i, packets⟩ ∈ cs ↔ ⟨i, packets⟩ ∈ cs' := by
  obtain ⟨hord, hpackets⟩ := group_eq_ok h
  constructor
  · refine ⟨hord.ascending, hord.nonempty, ?_, ?_, ?_⟩
    · intro i
      rw [← packetsOf_ne_nil_iff h i]
      constructor
      · rintro ⟨c, hc, rfl⟩
        rw [Buffers.packetsOf_of_mem hord hc]
        exact hord.nonempty c hc
      · intro hne
        obtain ⟨c, hc, hindex, -⟩ := Buffers.exists_mem_of_packetsOf hne
        exact ⟨c, hc, hindex⟩
    · intro c hc
      rw [← Buffers.packetsOf_of_mem hord hc, hpackets]
      exact forall₂_payloadsOf (reads_of_groupFrom_eq_ok h) c.index
    · have htotal := total_of_groupFrom h
      simpa [Buffers.total, Buffers.empty] using htotal
  · intro entries' cs' h' i hsame packets
    obtain ⟨hord', hpackets'⟩ := group_eq_ok h'
    have hview : Buffers.packetsOf i cs = Buffers.packetsOf i cs' := by
      rw [hpackets, hpackets', filterMap_packetIn?, filterMap_packetIn?, hsame]
    rw [mem_iff_packetsOf hord, mem_iff_packetsOf hord', hview]

/-- The index one is written in two ways; the entry without a stream is
passed over, and another stream does not matter. -/
theorem conversations_of_entries_of_two_spellings :
    let entries : List Entry := [⟨some " +1", some "52:54"⟩, ⟨some "0", some "dead"⟩,
      ⟨none, some "zz"⟩, ⟨some "01", some "00"⟩]
    let others : List Entry := [⟨some "7", some ""⟩, ⟨some "1", some "52:54"⟩,
      ⟨some "1", some "00"⟩]
    let cs : List Conversation := [⟨0, [[0xDE, 0xAD]]⟩, ⟨1, [[0x52, 0x54], [0]]⟩]
    group entries = .ok cs ∧ Groups entries cs ∧
      payloadsOf 1 entries = payloadsOf 1 others ∧
      ∃ cs', group others = .ok cs' ∧ ⟨1, [[0x52, 0x54], [0]]⟩ ∈ cs' := by
  intro entries others cs
  have hgroup : group entries = .ok cs := by decide +kernel
  have hothers : group others = .ok [⟨1, [[0x52, 0x54], [0]]⟩, ⟨7, [[]]⟩] := by decide +kernel
  have hsame : payloadsOf 1 entries = payloadsOf 1 others := by decide +kernel
  obtain ⟨hgroups, halike⟩ := conversations_of_entries hgroup
  exact ⟨hgroup, hgroups, hsame, _, hothers,
    (halike others _ hothers 1 hsame _).mp (by simp [cs])⟩

/-! ## Where grouping fails -/

/-- An entry that has both fields fails at its index or, where this is one, at
its payload. -/
inductive Entry.Fails : Entry → Failure → Prop where
  | index {stream payload : String} : (∀ i, ¬ Index i stream.toList) →
    Fails ⟨some stream, some payload⟩ (.badStreamIndex stream)
  | payload {stream payload : String} {i : Nat} {fault : Hex.Fault} : Index i stream.toList →
    Packet.ofField payload =
      .error (.malformedHex (String.ofList (Text.trim payload.toList)) fault) →
    Fails ⟨some stream, some payload⟩
      (.malformedHex (String.ofList (Text.trim payload.toList)) fault)

theorem streamIndex?_eq_none_iff {stream : String} :
    streamIndex? stream = none ↔ ∀ i, ¬ Index i stream.toList := by
  simp only [← streamIndex?_eq_some_iff, Option.eq_none_iff_forall_ne_some, ne_eq]

theorem groupFrom_cons_of_fails {e : Entry} {f : Failure} (h : e.Fails f)
    (entries : List Entry) (g : Buffers) : groupFrom g (e :: entries) = .error f := by
  cases h with
  | index hindex => simp only [groupFrom, streamIndex?_eq_none_iff.mpr hindex]
  | payload hindex hpayload => simp only [groupFrom, streamIndex?_eq_some_iff.mpr hindex, hpayload]

theorem isComplete_of_fails {e : Entry} {f : Failure} (h : e.Fails f) : e.IsComplete := by
  cases h <;> exact ⟨_, _, rfl⟩

theorem not_reads_of_fails {e : Entry} {f : Failure} (h : e.Fails f) {i : Nat}
    {packet : Packet} : ¬ e.Reads i packet := by
  intro hreads
  have herror := groupFrom_cons_of_fails h [] Buffers.empty
  rw [groupFrom_cons_of_reads hreads] at herror
  cases herror

/-- An entry that has both fields can be read or fails. -/
theorem reads_or_fails {e : Entry} (h : e.IsComplete) :
    (∃ i packet, e.Reads i packet) ∨ ∃ f, e.Fails f := by
  obtain ⟨stream, payload, rfl⟩ := h
  cases hindex : streamIndex? stream with
  | none => exact .inr ⟨_, .index (streamIndex?_eq_none_iff.mp hindex)⟩
  | some i =>
    have hindex := streamIndex?_eq_some_iff.mp hindex
    cases hpayload : Packet.ofField payload with
    | ok packet => exact .inl ⟨i, packet, stream, payload, rfl, hindex,
        Packet.ofField_eq_ok_iff.mp hpayload⟩
    | error f =>
      obtain ⟨fault, rfl⟩ := Packet.exists_fault_of_ofField hpayload
      exact .inr ⟨_, .payload hindex hpayload⟩

/-- Grouping goes on behind an entry that does not fail. -/
theorem exists_groupFrom_cons {e : Entry} (h : ∀ f, ¬ e.Fails f) (entries : List Entry)
    (g : Buffers) : ∃ g', groupFrom g (e :: entries) = groupFrom g' entries := by
  by_cases hcomplete : e.IsComplete
  · rcases reads_or_fails hcomplete with ⟨i, packet, hreads⟩ | ⟨f, hfails⟩
    · exact ⟨_, groupFrom_cons_of_reads hreads entries g⟩
    · exact absurd hfails (h f)
  · exact ⟨g, groupFrom_cons_of_not_isComplete hcomplete entries g⟩

theorem groupFrom_eq_error_iff {entries : List Entry} {f : Failure} {g : Buffers} :
    groupFrom g entries = .error f ↔ ∃ front entry back, entries = front ++ entry :: back ∧
      (∀ e ∈ front, ∀ f', ¬ e.Fails f') ∧ entry.Fails f := by
  refine Splitting.exists_first_from_iff (p := fun g entries => groupFrom g entries = .error f)
    (by simp [groupFrom]) ?_ g entries
  intro g e entries
  by_cases hfails : ∃ f', e.Fails f'
  · obtain ⟨f', hfails⟩ := hfails
    have hone : e.Fails f ↔ f' = f := by
      constructor
      · intro h
        have heq := groupFrom_cons_of_fails h entries g
        rw [groupFrom_cons_of_fails hfails] at heq
        exact Except.error.inj heq
      · rintro rfl
        exact hfails
    refine ⟨g, ?_⟩
    rw [groupFrom_cons_of_fails hfails, Except.error.injEq, hone]
    exact ⟨.inl, fun h => h.elim id fun h => absurd hfails (h.1 f')⟩
  · have hgood : ∀ f', ¬ e.Fails f' := fun f' h => hfails ⟨f', h⟩
    obtain ⟨g', hnext⟩ := exists_groupFrom_cons hgood entries g
    refine ⟨g', ?_⟩
    rw [hnext]
    exact ⟨fun h => .inr ⟨hgood, h⟩, fun h => h.elim (fun h => absurd h (hgood f)) And.right⟩

/-- Entries that lack a field make no difference. -/
theorem groupFrom_filter (entries : List Entry) : ∀ g : Buffers,
    groupFrom g (entries.filter fun e => e.IsComplete) = groupFrom g entries := by
  induction entries with
  | nil => exact fun g => rfl
  | cons e entries ih =>
    intro g
    by_cases hcomplete : e.IsComplete
    · rw [List.filter_cons_of_pos (by simpa using hcomplete)]
      rcases reads_or_fails hcomplete with ⟨i, packet, hreads⟩ | ⟨f, hfails⟩
      · rw [groupFrom_cons_of_reads hreads, groupFrom_cons_of_reads hreads, ih]
      · rw [groupFrom_cons_of_fails hfails, groupFrom_cons_of_fails hfails]
    · rw [List.filter_cons_of_neg (by simpa using hcomplete),
        groupFrom_cons_of_not_isComplete hcomplete, ih]

theorem fails_iff {stream payload : String} :
    (∃ f, Entry.Fails ⟨some stream, some payload⟩ f) ↔
      (∀ i, ¬ Index i stream.toList) ∨ ∀ packet, ¬ Packet.Field packet payload.toList := by
  constructor
  · rintro ⟨f, hfails⟩
    cases hfails with
    | index hindex => exact .inl hindex
    | payload hindex hpayload =>
      refine .inr fun packet hpacket => ?_
      rw [Packet.ofField_eq_ok_iff.mpr hpacket] at hpayload
      cases hpayload
  · intro h
    rcases reads_or_fails ⟨stream, payload, rfl⟩ with ⟨i, packet, _, _, heq, hi, hp⟩ | hfails
    · obtain ⟨hstream, hpayload⟩ := Entry.mk.inj heq
      obtain rfl := Option.some.inj hstream
      obtain rfl := Option.some.inj hpayload
      rcases h with hindex | hfield
      · exact absurd hi (hindex i)
      · exact absurd hp (hfield packet)
    · exact hfails

/-- Grouping fails where a complete entry has a stream that is no index or a
payload that is no field, and then says of the first one what is wrong, its
index before its payload. Entries that lack a field can be left out or put in
anywhere. -/
theorem group_fails_at_first_bad (entries : List Entry) :
    ((∃ f, group entries = .error f) ↔
      ∃ stream payload, ⟨some stream, some payload⟩ ∈ entries ∧
        ((∀ i, ¬ Index i stream.toList) ∨ ∀ packet, ¬ Packet.Field packet payload.toList)) ∧
    (∀ f, group entries = .error f ↔
      ∃ front entry back, entries = front ++ entry :: back ∧
        (∀ e ∈ front, ∀ f', ¬ e.Fails f') ∧ entry.Fails f) ∧
    group entries = group (entries.filter fun e => e.IsComplete) := by
  refine ⟨?_, fun f => groupFrom_eq_error_iff, (groupFrom_filter entries _).symm⟩
  simp only [← fails_iff]
  constructor
  · rintro ⟨f, hf⟩
    obtain ⟨front, entry, back, rfl, -, hfails⟩ := groupFrom_eq_error_iff.mp hf
    obtain ⟨stream, payload, rfl⟩ := isComplete_of_fails hfails
    exact ⟨stream, payload, by simp, f, hfails⟩
  · rintro ⟨stream, payload, hmem, f, hfails⟩
    cases hgroup : group entries with
    | error f => exact ⟨f, rfl⟩
    | ok cs =>
      obtain ⟨i, packet, hreads⟩ :=
        reads_of_groupFrom_eq_ok hgroup _ hmem ⟨stream, payload, rfl⟩
      exact absurd hreads (not_reads_of_fails hfails)

end Dissection
end CaptureSplit
