/-
CaptureSplit.Proofs.Gathering — which packets are gathered where.

`Buffers.packetsOf i` views gathered conversations as the packets of each
index. While the conversations are in order (`Ordered`: ascending, none
empty), adding a packet appends it in the view of its own index and changes
no other (`packetsOf_add`), and the view determines the conversations
(`eq_of_packetsOf`).

Of a dissection's entries, those that have both fields and can be read are
described by `Entry.Reads`. Where grouping succeeds, the packets of an index
are the ones that the entries of this index read as, in their order
(`groupFrom_eq_ok`); it succeeds where every entry that has both fields can
be read (`exists_groupFrom`).
-/
import CaptureSplit.Proofs.PacketText
import CaptureSplit.Proofs.StreamIndex

namespace CaptureSplit

namespace Buffers

/-! ## Conversations in order -/

/-- The packets gathered under an index. -/
def packetsOf (i : Nat) : Buffers → List Packet
  | [] => []
  | c :: rest => if c.index = i then c.packets else packetsOf i rest

/-- Indices ascend, and no conversation is empty. -/
structure Ordered (g : Buffers) : Prop where
  ascending : g.Pairwise fun c c' => c.index < c'.index
  nonempty : ∀ c ∈ g, c.packets ≠ []

theorem ordered_empty : Ordered empty := ⟨List.Pairwise.nil, fun _ h => by cases h⟩

theorem ordered_cons_iff {c : Conversation} {g : Buffers} :
    Ordered (c :: g) ↔ (∀ c' ∈ g, c.index < c'.index) ∧ c.packets ≠ [] ∧ Ordered g := by
  constructor
  · rintro ⟨hasc, hne⟩
    obtain ⟨hlt, hasc⟩ := List.pairwise_cons.mp hasc
    exact ⟨hlt, hne c (by simp), hasc, fun c' hc' => hne c' (by simp [hc'])⟩
  · rintro ⟨hlt, hne, hasc, hall⟩
    exact ⟨List.pairwise_cons.mpr ⟨hlt, hasc⟩, List.forall_mem_cons.mpr ⟨hne, hall⟩⟩

theorem packetsOf_eq_nil {i : Nat} : ∀ {g : Buffers}, (∀ c ∈ g, i < c.index) → packetsOf i g = []
  | [], _ => rfl
  | c :: g, h => by
      have hc := h c (by simp)
      rw [packetsOf, if_neg (by omega)]
      exact packetsOf_eq_nil fun c' hc' => h c' (by simp [hc'])

theorem packetsOf_of_mem {c : Conversation} : ∀ {g : Buffers}, Ordered g → c ∈ g →
    packetsOf c.index g = c.packets
  | c' :: g, hord, hc => by
      obtain ⟨hlt, -, hord⟩ := ordered_cons_iff.mp hord
      rcases List.mem_cons.mp hc with rfl | hc
      · rw [packetsOf, if_pos rfl]
      · have := hlt c hc
        rw [packetsOf, if_neg (by omega)]
        exact packetsOf_of_mem hord hc

theorem exists_mem_of_packetsOf {i : Nat} : ∀ {g : Buffers}, packetsOf i g ≠ [] →
    ∃ c ∈ g, c.index = i ∧ c.packets = packetsOf i g
  | [], h => absurd rfl h
  | c :: g, h => by
      by_cases hi : c.index = i
      · exact ⟨c, by simp, hi, by rw [packetsOf, if_pos hi]⟩
      · rw [packetsOf, if_neg hi] at h ⊢
        obtain ⟨c', hc', hrest⟩ := exists_mem_of_packetsOf h
        exact ⟨c', by simp [hc'], hrest⟩

/-! ## Adding -/

theorem index_of_mem_add {i : Nat} {p : Packet} {c : Conversation} : ∀ {g : Buffers},
    c ∈ add i p g → c.index = i ∨ ∃ c' ∈ g, c'.index = c.index
  | [], h => by
      rw [add, List.mem_singleton] at h
      exact .inl (by rw [h])
  | c' :: g, h => by
      rw [add] at h
      split at h
      · rcases List.mem_cons.mp h with rfl | h
        · exact .inl rfl
        · exact .inr ⟨c, h, rfl⟩
      · split at h
        · next heq =>
          rcases List.mem_cons.mp h with rfl | h
          · exact .inl heq.symm
          · exact .inr ⟨c, by simp [h], rfl⟩
        · rcases List.mem_cons.mp h with rfl | h
          · exact .inr ⟨c, by simp, rfl⟩
          · rcases index_of_mem_add h with h | ⟨c'', hc'', h⟩
            · exact .inl h
            · exact .inr ⟨c'', by simp [hc''], h⟩

theorem ordered_add (i : Nat) (p : Packet) : ∀ {g : Buffers}, Ordered g → Ordered (add i p g)
  | [], _ => by
      rw [add, ordered_cons_iff]
      exact ⟨by simp, List.cons_ne_nil _ _, ordered_empty⟩
  | c :: g, hord => by
      obtain ⟨hlt, hne, hrest⟩ := ordered_cons_iff.mp hord
      rw [add]
      split
      · next hi =>
        refine ordered_cons_iff.mpr ⟨fun c' hc' => ?_, List.cons_ne_nil _ _, hord⟩
        rcases List.mem_cons.mp hc' with rfl | hc'
        · exact hi
        · exact Nat.lt_trans hi (hlt c' hc')
      · split
        · exact ordered_cons_iff.mpr ⟨hlt, by simp, hrest⟩
        · next hge hi =>
          refine ordered_cons_iff.mpr ⟨fun c' hc' => ?_, hne, ordered_add i p hrest⟩
          rcases index_of_mem_add hc' with heq | ⟨c'', hc'', heq⟩
          · omega
          · exact heq ▸ hlt c'' hc''

/-- A packet is appended under its own index. -/
theorem packetsOf_add (i j : Nat) (p : Packet) : ∀ {g : Buffers}, Ordered g →
    packetsOf j (add i p g) = packetsOf j g ++ if i = j then [p] else []
  | [], _ => by simp [add, packetsOf]
  | c :: g, hord => by
      obtain ⟨hlt, -, hrest⟩ := ordered_cons_iff.mp hord
      rw [add]
      split
      · next hi =>
        -- the index is new: it stands before all that is there
        have hnil : packetsOf i (c :: g) = [] := by
          refine packetsOf_eq_nil fun c' hc' => ?_
          rcases List.mem_cons.mp hc' with rfl | hc'
          · exact hi
          · exact Nat.lt_trans hi (hlt c' hc')
        rw [packetsOf]
        by_cases hj : i = j
        · subst hj
          simp [hnil]
        · simp [hj]
      · split
        · next hi =>
          subst hi
          by_cases hj : c.index = j <;> simp [packetsOf, hj]
        · next hi =>
          have ih := packetsOf_add i j p hrest
          by_cases hj : c.index = j
          · have hne : i ≠ j := by omega
            simp [packetsOf, hj, hne]
          · simp only [packetsOf, if_neg hj, ih]

/-- What the second of two views lacks, the first lacks too. -/
theorem le_index_of_packetsOf {c c' : Conversation} {g g' : Buffers} (hord : Ordered (c :: g))
    (hord' : Ordered (c' :: g')) (h : ∀ i, packetsOf i (c :: g) = packetsOf i (c' :: g')) :
    c'.index ≤ c.index := by
  refine Nat.le_of_not_lt fun hlt => ?_
  have hc := h c.index
  rw [packetsOf_of_mem hord (by simp), packetsOf_eq_nil fun d hd => ?_] at hc
  · exact hord.nonempty c (by simp) hc
  · rcases List.mem_cons.mp hd with rfl | hd
    · exact hlt
    · exact Nat.lt_trans hlt ((ordered_cons_iff.mp hord').1 d hd)

/-- Conversations in order are determined by the packets of each index. -/
theorem eq_of_packetsOf : ∀ {g g' : Buffers}, Ordered g → Ordered g' →
    (∀ i, packetsOf i g = packetsOf i g') → g = g'
  | [], [], _, _, _ => rfl
  | [], c :: g', _, hord', h => by
      have hc := h c.index
      rw [packetsOf_of_mem hord' (by simp)] at hc
      exact absurd hc.symm (hord'.nonempty c (by simp))
  | c :: g, [], hord, _, h => by
      have hc := h c.index
      rw [packetsOf_of_mem hord (by simp)] at hc
      exact absurd hc (hord.nonempty c (by simp))
  | c :: g, c' :: g', hord, hord', h => by
      have hindex : c.index = c'.index :=
        Nat.le_antisymm (le_index_of_packetsOf hord' hord fun i => (h i).symm)
          (le_index_of_packetsOf hord hord' h)
      have hpackets : c.packets = c'.packets := by
        have hc := h c.index
        rwa [packetsOf, packetsOf, if_pos rfl, if_pos hindex.symm] at hc
      obtain ⟨hlt, -, hrest⟩ := ordered_cons_iff.mp hord
      obtain ⟨hlt', -, hrest'⟩ := ordered_cons_iff.mp hord'
      have htail : g = g' := eq_of_packetsOf hrest hrest' fun i => by
        by_cases hi : c.index = i
        · subst hi
          rw [packetsOf_eq_nil hlt, packetsOf_eq_nil fun d hd => hindex ▸ hlt' d hd]
        · have := h i
          rwa [packetsOf, packetsOf, if_neg hi, if_neg (hindex ▸ hi)] at this
      rw [htail, show c = c' from by cases c; cases c'; simp_all]

end Buffers

/-! ## Entries -/

namespace Dissection

/-- The entry has both fields. -/
def Entry.IsComplete (e : Entry) : Prop := ∃ stream payload, e = ⟨some stream, some payload⟩

/-- The entry has both fields, and they read as an index and a packet. -/
def Entry.Reads (e : Entry) (i : Nat) (packet : Packet) : Prop :=
  ∃ stream payload, e = ⟨some stream, some payload⟩ ∧ Index i stream.toList ∧
    Packet.Field packet payload.toList

/-- The packet that an entry of a stream has, if it is one. -/
def Entry.packetIn? (i : Nat) : Entry → Option Packet
  | ⟨some stream, some payload⟩ =>
    if streamIndex? stream = some i then (Packet.ofField payload).toOption else none
  | _ => none

theorem packetIn?_eq_some_iff {e : Entry} {i : Nat} {packet : Packet} :
    e.packetIn? i = some packet ↔ e.Reads i packet := by
  constructor
  · intro h
    unfold Entry.packetIn? at h
    split at h
    · next stream payload =>
      split at h
      · next hi =>
        refine ⟨stream, payload, rfl, streamIndex?_eq_some_iff.mp hi, Packet.ofField_eq_ok_iff.mp ?_⟩
        cases hp : Packet.ofField payload with
        | error e => simp [hp, Except.toOption] at h
        | ok p => simpa [hp, Except.toOption] using h
      · cases h
    · cases h
  · rintro ⟨stream, payload, rfl, hi, hp⟩
    rw [Entry.packetIn?, if_pos (streamIndex?_eq_some_iff.mpr hi),
      Packet.ofField_eq_ok_iff.mpr hp]
    rfl

theorem packetIn?_of_reads {e : Entry} {i : Nat} {packet : Packet} (h : e.Reads i packet)
    (j : Nat) : e.packetIn? j = if i = j then some packet else none := by
  obtain ⟨stream, payload, rfl, hi, hp⟩ := h
  rw [Entry.packetIn?, streamIndex?_eq_some_iff.mpr hi, Packet.ofField_eq_ok_iff.mpr hp]
  simp [Except.toOption]

theorem packetIn?_of_not_isComplete {e : Entry} (h : ¬ e.IsComplete) (j : Nat) :
    e.packetIn? j = none := by
  unfold Entry.packetIn?
  split
  · next stream payload => exact absurd ⟨stream, payload, rfl⟩ h
  · rfl

/-! ## Grouping -/

/-- Grouping passes over an entry or adds what it reads as. -/
theorem groupFrom_cons_eq_ok {e : Entry} {entries : List Entry} {g g' : Buffers}
    (h : groupFrom g (e :: entries) = .ok g') :
    (¬ e.IsComplete ∧ groupFrom g entries = .ok g') ∨
      ∃ i packet, e.Reads i packet ∧ groupFrom (g.add i packet) entries = .ok g' := by
  match e with
  | ⟨some stream, some payload⟩ =>
    rw [groupFrom] at h
    split at h
    · cases h
    · next i hi =>
      split at h
      · cases h
      · next packet hp =>
        exact .inr ⟨i, packet, ⟨stream, payload, rfl, streamIndex?_eq_some_iff.mp hi,
          Packet.ofField_eq_ok_iff.mp hp⟩, h⟩
  | ⟨some _, none⟩ => exact .inl ⟨by simp [Entry.IsComplete], h⟩
  | ⟨none, _⟩ => exact .inl ⟨by simp [Entry.IsComplete], h⟩

theorem groupFrom_cons_of_not_isComplete {e : Entry} (he : ¬ e.IsComplete)
    (entries : List Entry) (g : Buffers) : groupFrom g (e :: entries) = groupFrom g entries := by
  match e, he with
  | ⟨some stream, some payload⟩, he => exact absurd ⟨stream, payload, rfl⟩ he
  | ⟨some _, none⟩, _ => rfl
  | ⟨none, _⟩, _ => rfl

theorem groupFrom_cons_of_reads {e : Entry} {i : Nat} {packet : Packet} (he : e.Reads i packet)
    (entries : List Entry) (g : Buffers) :
    groupFrom g (e :: entries) = groupFrom (g.add i packet) entries := by
  obtain ⟨stream, payload, rfl, hi, hp⟩ := he
  simp only [groupFrom, streamIndex?_eq_some_iff.mpr hi, Packet.ofField_eq_ok_iff.mpr hp]

/-- What grouping adds to what has been gathered: under each index, the
packets of its entries. -/
theorem groupFrom_eq_ok : ∀ {entries : List Entry} {g g' : Buffers},
    groupFrom g entries = .ok g' → g.Ordered →
      g'.Ordered ∧ ∀ i, g'.packetsOf i = g.packetsOf i ++ entries.filterMap (Entry.packetIn? i)
  | [], g, g', h, hord => by
      injection h with h
      subst h
      exact ⟨hord, fun i => by simp⟩
  | e :: entries, g, g', h, hord => by
      rcases groupFrom_cons_eq_ok h with ⟨he, h⟩ | ⟨i, packet, he, h⟩
      · obtain ⟨hord', hpackets⟩ := groupFrom_eq_ok h hord
        refine ⟨hord', fun j => ?_⟩
        rw [hpackets, List.filterMap_cons_none (packetIn?_of_not_isComplete he j)]
      · obtain ⟨hord', hpackets⟩ := groupFrom_eq_ok h (g.ordered_add i packet hord)
        refine ⟨hord', fun j => ?_⟩
        rw [hpackets, Buffers.packetsOf_add i j packet hord, List.append_assoc,
          List.filterMap_cons, packetIn?_of_reads he j]
        by_cases hj : i = j <;> simp [hj]

theorem exists_groupFrom : ∀ {entries : List Entry} (g : Buffers),
    (∀ e ∈ entries, e.IsComplete → ∃ i packet, e.Reads i packet) →
      ∃ g', groupFrom g entries = .ok g'
  | [], g, _ => ⟨g, rfl⟩
  | e :: entries, g, h => by
      have hrest := fun e' he' => h e' (List.mem_cons_of_mem e he')
      by_cases he : e.IsComplete
      · obtain ⟨i, packet, hreads⟩ := h e (by simp) he
        rw [groupFrom_cons_of_reads hreads]
        exact exists_groupFrom _ hrest
      · rw [groupFrom_cons_of_not_isComplete he]
        exact exists_groupFrom g hrest

/-- Where grouping succeeds, no complete entry was one that cannot be read. -/
theorem reads_of_groupFrom_eq_ok : ∀ {entries : List Entry} {g g' : Buffers},
    groupFrom g entries = .ok g' →
      ∀ e ∈ entries, e.IsComplete → ∃ i packet, e.Reads i packet
  | [], _, _, _, _, he, _ => by cases he
  | e :: entries, g, g', h, e', he', hcomplete => by
      rcases groupFrom_cons_eq_ok h with ⟨hnot, h⟩ | ⟨i, packet, hreads, h⟩
      · rcases List.mem_cons.mp he' with rfl | he'
        · exact absurd hcomplete hnot
        · exact reads_of_groupFrom_eq_ok h e' he' hcomplete
      · rcases List.mem_cons.mp he' with rfl | he'
        · exact ⟨i, packet, hreads⟩
        · exact reads_of_groupFrom_eq_ok h e' he' hcomplete

/-- The conversations of a dissection are in order, and hold under each
index the packets of its entries. -/
theorem group_eq_ok {entries : List Entry} {cs : List Conversation} (h : group entries = .ok cs) :
    Buffers.Ordered cs ∧
      ∀ i, Buffers.packetsOf i cs = entries.filterMap (Entry.packetIn? i) := by
  obtain ⟨hord, hpackets⟩ := groupFrom_eq_ok h Buffers.ordered_empty
  exact ⟨hord, fun i => by simpa [Buffers.packetsOf, Buffers.empty] using hpackets i⟩

/-! ## Positions -/

/-- The stream index of an entry that has both fields. -/
def Entry.index? : Entry → Option Nat
  | ⟨some stream, some _⟩ => streamIndex? stream
  | _ => none

/-- How many of the first `k` entries have both fields and the index `i`. -/
def earlier (entries : List Entry) (k i : Nat) : Nat :=
  (entries.take k).countP fun e => e.index? = some i

/-- An element that a filter keeps has the number of those kept before it. -/
theorem getElem?_filterMap_eq_some_iff {α β : Type} {f : α → Option β} {y : β} :
    ∀ {l : List α} {n : Nat}, (l.filterMap f)[n]? = some y ↔
      ∃ k x, l[k]? = some x ∧ f x = some y ∧ ((l.take k).filterMap f).length = n
  | [], n => by simp
  | x :: l, n => by
      have hshift : ∀ m, (∃ k z, (x :: l)[k]? = some z ∧ f z = some y ∧
          (((x :: l).take k).filterMap f).length = m) ↔
          (f x = some y ∧ m = 0) ∨ ∃ k z, l[k]? = some z ∧ f z = some y ∧
            ((x :: l.take k).filterMap f).length = m := by
        intro m
        constructor
        · rintro ⟨k, z, hk, hz, hm⟩
          cases k with
          | zero =>
            obtain rfl : x = z := by simpa using hk
            exact .inl ⟨hz, by simpa using hm.symm⟩
          | succ k => exact .inr ⟨k, z, by simpa using hk, hz, hm⟩
        · rintro (⟨hx, rfl⟩ | ⟨k, z, hk, hz, hm⟩)
          · exact ⟨0, x, rfl, hx, rfl⟩
          · exact ⟨k + 1, z, by simpa using hk, hz, hm⟩
      rw [hshift]
      cases hx : f x with
      | none =>
        rw [List.filterMap_cons_none hx, getElem?_filterMap_eq_some_iff]
        simp [hx]
      | some w =>
        rw [List.filterMap_cons_some hx]
        cases n with
        | zero => simp [hx]
        | succ n =>
          rw [List.getElem?_cons_succ, getElem?_filterMap_eq_some_iff]
          simp [hx]

theorem index?_of_reads {e : Entry} {i : Nat} {packet : Packet} (h : e.Reads i packet) :
    e.index? = some i := by
  obtain ⟨stream, payload, rfl, hi, -⟩ := h
  exact streamIndex?_eq_some_iff.mpr hi

/-- An entry counts among those before any later one. -/
theorem earlier_lt_earlier {entries : List Entry} {k k' i : Nat} {e : Entry}
    (he : entries[k]? = some e) (hi : e.index? = some i) (h : k < k') :
    earlier entries k i < earlier entries k' i := by
  have hnext : earlier entries (k + 1) i = earlier entries k i + 1 := by
    simp [earlier, List.take_add_one, he, hi]
  have hprefix : entries.take (k + 1) <+: entries.take k' :=
    List.take_prefix_take_left h
  have hle : earlier entries (k + 1) i ≤ earlier entries k' i := hprefix.sublist.countP_le
  omega

/-- Entries at different positions are not the same number of the same
conversation. -/
theorem eq_of_earlier_eq {entries : List Entry} {k k' i : Nat} {e e' : Entry}
    (he : entries[k]? = some e) (hi : e.index? = some i) (he' : entries[k']? = some e')
    (hi' : e'.index? = some i) (h : earlier entries k i = earlier entries k' i) : k = k' := by
  rcases Nat.lt_trichotomy k k' with hlt | heq | hgt
  · have := earlier_lt_earlier he hi hlt
    omega
  · exact heq
  · have := earlier_lt_earlier he' hi' hgt
    omega

/-- Where every entry can be read, the entries of an index are those that
have a packet in it. -/
theorem earlier_eq {entries : List Entry}
    (h : ∀ e ∈ entries, e.IsComplete → ∃ i packet, e.Reads i packet) (k i : Nat) :
    earlier entries k i = ((entries.take k).filterMap (Entry.packetIn? i)).length := by
  rw [earlier, List.length_filterMap_eq_countP]
  refine List.countP_congr fun e he => ?_
  rw [decide_eq_true_eq]
  by_cases hc : e.IsComplete
  · obtain ⟨j, packet, hreads⟩ := h e (List.mem_of_mem_take he) hc
    rw [index?_of_reads hreads, packetIn?_of_reads hreads]
    by_cases hj : j = i <;> simp [hj]
  · rw [packetIn?_of_not_isComplete hc]
    have hnone : e.index? = none := by
      unfold Entry.index?
      split
      · next stream payload => exact absurd ⟨stream, payload, rfl⟩ hc
      · rfl
    simp [hnone]

/-- A packet of a conversation is that of an entry of its index, and its
number is that of the entries of the index before. -/
theorem getElem?_packetsOf_iff {entries : List Entry} {cs : List Conversation}
    (hvalid : ∀ e ∈ entries, e.IsComplete → ∃ i packet, e.Reads i packet)
    (h : group entries = .ok cs) {i n : Nat} {packet : Packet} :
    (Buffers.packetsOf i cs)[n]? = some packet ↔
      ∃ k e, entries[k]? = some e ∧ e.Reads i packet ∧ earlier entries k i = n := by
  rw [(group_eq_ok h).2 i, getElem?_filterMap_eq_some_iff]
  simp only [packetIn?_eq_some_iff, earlier_eq hvalid]

end Dissection
end CaptureSplit
