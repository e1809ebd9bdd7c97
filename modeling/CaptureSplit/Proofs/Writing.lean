/-
CaptureSplit.Proofs.Writing — the files of a conversation.

`Output.files` lists the files of a conversation: a path and the content
for each packet, in order. `Output.write` makes these files and does
nothing else to the disk (`write_eq`); `saveAll` makes the files of all its
conversations (`saveAll_eq`).

The packets of an output lie side by side. Their paths differ only behind
the last slash, by suffixes that hold none, so they lead to different
places (`resolve_packetPath_inj`), and the files of conversations with
different indices are never at the same place (`flatMap_files_distinct`).
-/
import CaptureSplit.Extraction
import CaptureSplit.Proofs.Creation
import CaptureSplit.Proofs.FileNames

namespace CaptureSplit

/-! ## Places of packets -/

namespace Disk

/-- A name that is not made of dots leads to a place of its own. -/
theorem enter_eq_append {d : Disk} {here l : Location} {name : Name} (hnil : name ≠ [])
    (hhere : name ≠ Path.here) (habove : name ≠ Path.above) (h : d.enter here name = .ok l) :
    l = here ++ [name] := by
  unfold enter at h
  split at h
  · cases h
  · cases h
  · rw [if_neg (not_or.mpr ⟨hnil, hhere⟩), if_neg habove] at h
    split at h
    · cases h
    · injection h with h
      exact h.symm

theorem enter_eq_of_long {d : Disk} {here l : Location} {name : Name} (hlong : 2 < name.length)
    (h : d.enter here name = .ok l) : l = here ++ [name] := by
  refine enter_eq_append ?_ ?_ ?_ h
  · rintro rfl
    simp at hlong
  · rintro rfl
    simp [Path.here] at hlong
  · rintro rfl
    simp [Path.above] at hlong

/-- The path of a packet leads through names that do not depend on the
packet, and on with a last name that ends in the packet's suffix. -/
theorem exists_resolve_packetPath (o : Output) : ∃ (names : List Name) (last : Name),
    ∀ (d : Disk) (c p : Nat), d.resolve (o.packetPath c p) =
      if o.stem.contains 0 then .error .nulInFileName
      else if (o.packetPath c p).length ≥ pathLimit then .error .nameTooLong
      else (d.walk (if o.stem.isAbsolute then [] else d.home) names).bind fun l =>
        d.enter l (last ++ Text.Utf8.ofString (packetSuffix c p)) := by
  obtain ⟨names, last, hsplit⟩ := Splitting.exists_splitOn_append Path.slash o.stem
  refine ⟨names, last, fun d c p => ?_⟩
  have hslash := slash_notMem_packetSuffix c p
  have hlen := four_le_length_packetSuffix c p
  have hzero : (o.packetPath c p).contains 0 = o.stem.contains 0 := by
    rw [Output.packetPath_eq, Bool.eq_iff_iff, List.contains_iff_mem, List.contains_iff_mem,
      List.mem_append]
    exact or_iff_left (zero_notMem_packetSuffix c p)
  have hnil : o.packetPath c p ≠ [] := by
    rw [Output.packetPath_eq, ← List.length_pos_iff, List.length_append]
    omega
  rw [resolve, hzero, if_neg hnil, Output.packetPath_eq, Path.parts, hsplit _ hslash, walk_append,
    Path.isAbsolute_append hslash]

theorem exists_place_packetPath (o : Output) : ∃ (names : List Name) (last : Name),
    ∀ (d : Disk) (c p : Nat) (l : Location), d.resolve (o.packetPath c p) = .ok l → ∃ base,
      d.walk (if o.stem.isAbsolute then [] else d.home) names = .ok base ∧
        l = base ++ [last ++ Text.Utf8.ofString (packetSuffix c p)] := by
  obtain ⟨names, last, hresolve⟩ := exists_resolve_packetPath o
  refine ⟨names, last, ?_⟩
  intro d c p l h
  have hlen := four_le_length_packetSuffix c p
  rw [hresolve] at h
  split at h
  · cases h
  · split at h
    · cases h
    · cases hbase : d.walk (if o.stem.isAbsolute then [] else d.home) names with
      | error e => simp [hbase, Except.bind] at h
      | ok base =>
        simp only [hbase, Except.bind] at h
        refine ⟨base, rfl, enter_eq_of_long ?_ h⟩
        rw [List.length_append]
        omega

/-- Different packets of an output are at different places. -/
theorem resolve_packetPath_inj {d : Disk} {o : Output} {c p c' p' : Nat} {l : Location}
    (h : d.resolve (o.packetPath c p) = .ok l) (h' : d.resolve (o.packetPath c' p') = .ok l) :
    c = c' ∧ p = p' := by
  obtain ⟨names, last, hplace⟩ := exists_place_packetPath o
  obtain ⟨base, hbase, hl⟩ := hplace d c p l h
  obtain ⟨base', hbase', hl'⟩ := hplace d c' p' l h'
  obtain rfl : base = base' := Except.ok.inj (hbase.symm.trans hbase')
  have heq := List.append_cancel_left (hl.symm.trans hl')
  have hname := List.append_cancel_left (List.singleton_inj.mp heq)
  exact packetSuffix_inj (Text.Utf8.ofString_injective hname)

end Disk

/-! ## Files -/

namespace Output

/-- The files of packets, the first of which has the number `number`. -/
def filesFrom (o : Output) (index number : Nat) (packets : List Packet) : List (Path × Bytes) :=
  (packets.zipIdx number).map fun packet => (o.packetPath index packet.2, packet.1)

/-- The files of a conversation. -/
def files (o : Output) (c : Conversation) : List (Path × Bytes) := o.filesFrom c.index 0 c.packets

theorem mem_files_iff {o : Output} {c : Conversation} {path : Path} {content : Bytes} :
    (path, content) ∈ o.files c ↔
      ∃ n, c.packets[n]? = some content ∧ path = o.packetPath c.index n := by
  simp only [files, filesFrom, List.mem_map, Prod.mk.injEq, Prod.exists,
    List.mem_zipIdx_iff_getElem?]
  constructor
  · rintro ⟨packet, n, hn, rfl, rfl⟩
    exact ⟨n, hn, rfl⟩
  · rintro ⟨n, hn, rfl⟩
    exact ⟨content, n, hn, rfl, rfl⟩

/-- The files are of different packets of the output. -/
def Distinct (o : Output) (f g : Path × Bytes) : Prop :=
  ∃ c p c' p', f.1 = o.packetPath c p ∧ g.1 = o.packetPath c' p' ∧ ¬ (c = c' ∧ p = p')

theorem Distinct.ne {o : Output} {f g : Path × Bytes} (h : o.Distinct f g) : f.1 ≠ g.1 := by
  obtain ⟨c, p, c', p', hf, hg, hne⟩ := h
  rw [hf, hg]
  exact fun heq => hne (packetPath_inj heq)

theorem Distinct.apart {o : Output} {f g : Path × Bytes} (h : o.Distinct f g) (d : Disk) :
    d.Apart f g := by
  obtain ⟨c, p, c', p', hf, hg, hne⟩ := h
  intro l hl hl'
  rw [hf] at hl
  rw [hg] at hl'
  exact hne (Disk.resolve_packetPath_inj hl hl')

theorem files_distinct (o : Output) (c : Conversation) : (o.files c).Pairwise o.Distinct := by
  have hnumbers : (c.packets.zipIdx).Pairwise fun x y => x.2 < y.2 := by
    rw [← List.pairwise_map (f := Prod.snd) (R := (· < ·)), List.zipIdx_map_snd]
    exact List.pairwise_lt_range'
  rw [files, filesFrom, List.pairwise_map]
  refine hnumbers.imp fun {x y} hxy => ?_
  exact ⟨c.index, x.2, c.index, y.2, rfl, rfl, fun h => by omega⟩

/-- Conversations of different indices have different files throughout. -/
theorem flatMap_files_distinct (o : Output) {cs : List Conversation}
    (hcs : cs.Pairwise fun c c' => c.index ≠ c'.index) :
    (cs.flatMap o.files).Pairwise o.Distinct := by
  rw [List.pairwise_flatMap]
  refine ⟨fun c _ => o.files_distinct c, hcs.imp fun {c c'} hne f hf g hg => ?_⟩
  obtain ⟨n, -, hn⟩ := mem_files_iff.mp hf
  obtain ⟨n', -, hn'⟩ := mem_files_iff.mp hg
  exact ⟨c.index, n, c'.index, n', hn, hn', fun h => hne h.1⟩

/-! ## Writing them -/

/-- The number of bytes in packets. -/
def size (packets : List Packet) : Nat := packets.flatten.length

theorem writeFrom_eq (o : Output) (index : Nat) :
    ∀ (packets : List Packet) (number written : Nat) (d : Disk),
      o.writeFrom index number written packets d =
        match d.createAll (o.filesFrom index number packets) with
        | (none, after) => (.ok (written + size packets), after)
        | (some e, after) => (.error e, after)
  | [], number, written, d => rfl
  | packet :: packets, number, written, d => by
      simp only [writeFrom, filesFrom, List.zipIdx_cons, List.map_cons, Disk.createAll]
      cases d.create (o.packetPath index number) packet with
      | error cause => rfl
      | ok after =>
        have ih := writeFrom_eq o index packets (number + 1) (written + packet.length) after
        simp only [filesFrom] at ih
        simp only [ih, size, List.flatten_cons, List.length_append, Nat.add_assoc]

/-- Writing a conversation is making its files. -/
theorem write_eq (o : Output) (c : Conversation) (d : Disk) :
    o.write c d =
      match d.createAll (o.files c) with
      | (none, after) => (.ok (size c.packets), after)
      | (some e, after) => (.error e, after) := by
  rw [write, writeFrom_eq, Nat.zero_add]
  rfl

end Output

namespace Extraction

theorem save_eq (o : Output) (c : Conversation) (s : Progress) :
    save o c s =
      match s.disk.createAll (o.files c) with
      | (none, after) => ⟨none, s.saved c (Output.size c.packets) after⟩
      | (some e, after) => ⟨some e, { s with disk := after }⟩ := by
  rw [save, Output.write_eq]
  cases h : s.disk.createAll (o.files c) with
  | mk failure after => cases failure <;> rfl

/-- Saving conversations is making the files of all of them. -/
theorem saveAll_eq (o : Output) : ∀ (cs : List Conversation) (s : Progress),
    ((saveAll o cs s).failure, (saveAll o cs s).progress.disk) =
      s.disk.createAll (cs.flatMap o.files)
  | [], s => rfl
  | c :: cs, s => by
      rw [List.flatMap_cons, Disk.createAll_append, saveAll, save_eq]
      cases h : s.disk.createAll (o.files c) with
      | mk failure after =>
        cases failure with
        | none => exact saveAll_eq o cs _
        | some e => rfl

end Extraction
end CaptureSplit
