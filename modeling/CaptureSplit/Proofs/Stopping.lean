/-
CaptureSplit.Proofs.Stopping — where the saving of conversations stops.

The packets of an output stand in one directory. Once one of them has been
made, the way to that directory is known to be open, so making packets
never changes what any other packet meets (`Output.SamePlaces`): whether it
can be made, and why it cannot, is decided by the disk before the first.

A conversation is written up to the first of its packets that is refused
(`Output.write_wrote`).

`Output.Ends` says how far saving gets on a disk: either all conversations
are written, or it stops at the first packet that cannot be made, behind
whole conversations and the packets of its own before it. `run_ends` says of
any run that this is what it leaves on the disk, in the totals and in dots.
-/
import Mathlib.Algebra.Ring.Nat
import Mathlib.Data.List.TakeWhile
import CaptureSplit.Proofs.Intake

namespace CaptureSplit

namespace Output

/-! ## Places that stay -/

/-- The packets of an output are at the same places on both disks. -/
structure SamePlaces (o : Output) (before after : Disk) : Prop where
  tree : Disk.SameTree before after
  place : ∀ c p, after.resolve (o.packetPath c p) = before.resolve (o.packetPath c p)

theorem SamePlaces.refl (o : Output) (d : Disk) : o.SamePlaces d d := ⟨.refl d, fun _ _ => rfl⟩

theorem SamePlaces.trans {o : Output} {a b c : Disk} (hab : o.SamePlaces a b)
    (hbc : o.SamePlaces b c) : o.SamePlaces a c :=
  ⟨hab.tree.trans hbc.tree, fun i j => (hbc.place i j).trans (hab.place i j)⟩

/-- The way to a packet that is made leads through a directory, and so does
that to any other. -/
theorem samePlaces_of_create {o : Output} {d after : Disk} {c p : Nat} {content : Bytes}
    (h : d.create (o.packetPath c p) content = .ok after) : o.SamePlaces d after := by
  obtain ⟨l, hl, hd, rfl⟩ := Disk.create_eq_ok_iff.mp h
  have htree := Disk.sameTree_put hd content (Disk.keepsExecutable (d.find? l))
  refine ⟨htree, ?_⟩
  intro i j
  obtain ⟨names, last, hresolve⟩ := Disk.exists_resolve_packetPath o
  rw [hresolve] at hl
  split at hl
  · cases hl
  · split at hl
    · cases hl
    · cases hbase : d.walk (if o.stem.isAbsolute then [] else d.home) names with
      | error e => simp [hbase, Except.bind] at hl
      | ok base =>
        simp only [hbase, Except.bind] at hl
        have henter := htree.enter_eq (Disk.directory_of_enter hl)
        simp only [hresolve, htree.home, htree.walk_eq_ok hbase, hbase, Except.bind, henter]

theorem SamePlaces.create_eq_error_iff {o : Output} {before after : Disk}
    (h : o.SamePlaces before after) {c p : Nat} {content : Bytes} {cause : SystemFault} :
    after.create (o.packetPath c p) content = .error cause ↔
      before.create (o.packetPath c p) content = .error cause := by
  simp only [Disk.create_eq_error_iff, h.place, h.tree.directory]

/-- The paths are those of packets of the output. -/
def OfPackets (o : Output) (files : List (Path × Bytes)) : Prop :=
  ∀ f ∈ files, ∃ c p, f.1 = o.packetPath c p

theorem ofPackets_files (o : Output) (c : Conversation) : o.OfPackets (o.files c) := by
  intro f hf
  obtain ⟨n, -, hpath⟩ := mem_files_iff.mp hf
  exact ⟨c.index, n, hpath⟩

theorem ofPackets_flatMap_files (o : Output) (cs : List Conversation) :
    o.OfPackets (cs.flatMap o.files) := by
  intro f hf
  obtain ⟨c, -, hf⟩ := List.mem_flatMap.mp hf
  exact o.ofPackets_files c f hf

theorem samePlaces_createAll {o : Output} {files : List (Path × Bytes)} (h : o.OfPackets files)
    (d : Disk) : o.SamePlaces d (d.createAll files).2 := by
  induction files generalizing d with
  | nil => exact .refl o d
  | cons f files ih =>
    obtain ⟨path, content⟩ := f
    obtain ⟨⟨c, p, rfl⟩, hrest⟩ := List.forall_mem_cons.mp h
    simp only [Disk.createAll]
    cases hcreate : d.create (o.packetPath c p) content with
    | error cause => exact .refl o d
    | ok after => exact (samePlaces_of_create hcreate).trans (ih hrest after)

/-! ## How far saving gets -/

/-- The files of all packets of a conversation can be made. -/
def IsWritable (o : Output) (d : Disk) (c : Conversation) : Prop :=
  ∀ n < c.packets.length, d.IsCreatable (o.packetPath c.index n)

instance (o : Output) (d : Disk) (c : Conversation) : Decidable (o.IsWritable d c) :=
  inferInstanceAs (Decidable (∀ n < c.packets.length, d.IsCreatable (o.packetPath c.index n)))

theorem IsWritable.isCreatable {o : Output} {d : Disk} {c : Conversation}
    (h : o.IsWritable d c) : ∀ f ∈ o.files c, d.IsCreatable f.1 := by
  intro f hf
  obtain ⟨n, hn, hpath⟩ := mem_files_iff.mp hf
  rw [hpath]
  exact h n (List.getElem?_eq_some_iff.mp hn).1

/-- Saving conversations on a disk writes those of `done`, and of the next one
the packets that `begun` has, if anything; the failure is why it stops. -/
inductive Ends (o : Output) (d : Disk) (cs : List Conversation) :
    List Conversation → List Conversation → Option Failure → Prop where
  | written : (∀ c ∈ cs, o.IsWritable d c) → Ends o d cs cs [] none
  | stopped {done rest : List Conversation} {c : Conversation} {front back : List Packet}
    {packet : Packet} {cause : SystemFault} :
    cs = done ++ c :: rest → (∀ c' ∈ done, o.IsWritable d c') →
    c.packets = front ++ packet :: back → o.IsWritable d ⟨c.index, front⟩ →
    d.create (o.packetPath c.index front.length) packet = .error cause →
    Ends o d cs done [⟨c.index, front⟩]
      (some (.notWritten (o.packetPath c.index front.length) cause))

/-- The number of the first packet of a conversation whose file cannot be made;
the number of its packets if there is none. -/
def firstRefused (o : Output) (d : Disk) (c : Conversation) : Nat :=
  (List.range c.packets.length).findIdx fun n => ¬ d.IsCreatable (o.packetPath c.index n)

theorem firstRefused_le (o : Output) (d : Disk) (c : Conversation) :
    o.firstRefused d c ≤ c.packets.length := by
  have h : o.firstRefused d c ≤ (List.range c.packets.length).length := List.findIdx_le_length
  rwa [List.length_range] at h

theorem isCreatable_of_lt_firstRefused {o : Output} {d : Disk} {c : Conversation} {n : Nat}
    (h : n < o.firstRefused d c) : d.IsCreatable (o.packetPath c.index n) := by
  have hnot := List.not_of_lt_findIdx h
  simpa using hnot

theorem not_isCreatable_firstRefused {o : Output} {d : Disk} {c : Conversation}
    (h : o.firstRefused d c < c.packets.length) :
    ¬ d.IsCreatable (o.packetPath c.index (o.firstRefused d c)) := by
  have hlt : o.firstRefused d c < (List.range c.packets.length).length := by
    rwa [List.length_range]
  have hfound := ((List.findIdx_eq hlt).mp (Eq.refl (o.firstRefused d c))).1
  rw [List.getElem_range] at hfound
  exact of_decide_eq_true hfound

theorem firstRefused_eq_length_iff {o : Output} {d : Disk} {c : Conversation} :
    o.firstRefused d c = c.packets.length ↔ o.IsWritable d c := by
  constructor
  · intro h n hn
    exact isCreatable_of_lt_firstRefused (h ▸ hn)
  · intro h
    by_contra hne
    have hlt := lt_of_le_of_ne (o.firstRefused_le d c) hne
    exact not_isCreatable_firstRefused hlt (h _ hlt)

/-- A conversation that cannot be written has a packet that cannot, behind
those that can. -/
theorem exists_refused {o : Output} {d : Disk} {c : Conversation}
    (h : o.firstRefused d c < c.packets.length) : ∃ front packet back cause,
      c.packets = front ++ packet :: back ∧ front.length = o.firstRefused d c ∧
        o.IsWritable d ⟨c.index, front⟩ ∧
          d.create (o.packetPath c.index front.length) packet = .error cause := by
  have hlength : (c.packets.take (o.firstRefused d c)).length = o.firstRefused d c :=
    List.length_take_of_le (Nat.le_of_lt h)
  obtain ⟨cause, hcause⟩ := (Disk.not_isCreatable_iff c.packets[o.firstRefused d c]).mp
    (not_isCreatable_firstRefused h)
  refine ⟨c.packets.take (o.firstRefused d c), c.packets[o.firstRefused d c],
    c.packets.drop (o.firstRefused d c + 1), cause, ?_, hlength, ?_, ?_⟩
  · rw [List.getElem_cons_drop, List.take_append_drop]
  · rw [IsWritable, hlength]
    exact fun n hn => isCreatable_of_lt_firstRefused (c := c) hn
  · rw [hlength]
    exact hcause

theorem exists_ends (o : Output) (d : Disk) (cs : List Conversation) :
    ∃ done begun failure, o.Ends d cs done begun failure := by
  by_cases h : ∀ c ∈ cs, o.IsWritable d c
  · exact ⟨cs, [], none, .written h⟩
  · cases hfind : cs.find? fun c => ¬ o.IsWritable d c with
    | none =>
      refine absurd ?_ h
      simpa using hfind
    | some c =>
      obtain ⟨hc, done, rest, rfl, hdone⟩ := List.find?_eq_some_iff_append.mp hfind
      have hc : ¬ o.IsWritable d c := by simpa using hc
      have hlt : o.firstRefused d c < c.packets.length :=
        lt_of_le_of_ne (o.firstRefused_le d c) fun heq => hc (firstRefused_eq_length_iff.mp heq)
      obtain ⟨front, packet, back, cause, hpackets, -, hfront, hcause⟩ := exists_refused hlt
      exact ⟨done, _, _, .stopped rfl (by simpa using hdone) hpackets hfront hcause⟩

/-- The conversations written are those before the first that cannot be. -/
theorem Ends.done_eq {o : Output} {d : Disk} {cs done begun : List Conversation}
    {failure : Option Failure} (h : o.Ends d cs done begun failure) :
    done = cs.takeWhile fun c => o.IsWritable d c := by
  cases h with
  | written hall => exact (List.takeWhile_eq_self_iff.mpr (by simpa using hall)).symm
  | @stopped _ rest c front back packet cause hcs hdone hpackets hfront hcause =>
    have hnot : ¬ o.IsWritable d c := by
      intro hc
      refine (Disk.not_isCreatable_iff packet).mpr ⟨cause, hcause⟩ (hc front.length ?_)
      simp [hpackets]
    rw [hcs, List.takeWhile_append_of_pos (by simpa using hdone)]
    simp [hnot]

/-! ## The files made -/

theorem files_eq_append {o : Output} {c : Conversation} {front back : List Packet}
    {packet : Packet} (h : c.packets = front ++ packet :: back) :
    o.files c = o.files ⟨c.index, front⟩ ++ (o.packetPath c.index front.length, packet) ::
      o.filesFrom c.index (front.length + 1) back := by
  simp [files, filesFrom, h, List.zipIdx_append]

/-- Files of packets that can be made, and a packet behind them that cannot, are
made up to this packet. -/
theorem createAll_stopped {o : Output} {d : Disk} {files rest : List (Path × Bytes)} {c p : Nat}
    {packet : Packet} {cause : SystemFault} (hpackets : o.OfPackets files)
    (hapart : files.Pairwise d.Apart) (hcan : ∀ f ∈ files, d.IsCreatable f.1)
    (hstop : d.create (o.packetPath c p) packet = .error cause) :
    ∃ after, d.createAll (files ++ (o.packetPath c p, packet) :: rest) =
        (some (.notWritten (o.packetPath c p) cause), after) ∧
      d.Wrote after fun path content => (path, content) ∈ files := by
  obtain ⟨after, hall, -, hwrote⟩ := Disk.createAll_wrote hapart hcan
  have hplaces := samePlaces_createAll hpackets d
  rw [hall] at hplaces
  refine ⟨after, ?_, hwrote⟩
  rw [Disk.createAll_append, hall]
  simp only [Disk.createAll, hplaces.create_eq_error_iff.mpr hstop]

/-- What making the files of conversations comes to. -/
theorem Ends.createAll {o : Output} {d : Disk} {cs done begun : List Conversation}
    {failure : Option Failure} (h : o.Ends d cs done begun failure)
    (hcs : cs.Pairwise fun c c' => c.index ≠ c'.index) :
    ∃ after, d.createAll (cs.flatMap o.files) = (failure, after) ∧
      d.Wrote after fun path content => (path, content) ∈ (done ++ begun).flatMap o.files := by
  have hapart : (cs.flatMap o.files).Pairwise d.Apart :=
    (o.flatMap_files_distinct hcs).imp fun hdistinct => hdistinct.apart d
  cases h with
  | written hall =>
    obtain ⟨after, hafter, -, hwrote⟩ := Disk.createAll_wrote hapart (by
      intro f hf
      obtain ⟨c, hc, hf⟩ := List.mem_flatMap.mp hf
      exact (hall c hc).isCreatable f hf)
    refine ⟨after, hafter, ?_⟩
    simpa using hwrote
  | @stopped _ rest c front back packet cause hsplit hdone hpackets hfront hcause =>
    have hfiles : cs.flatMap o.files = (done ++ [(⟨c.index, front⟩ : Conversation)]).flatMap o.files ++
        (o.packetPath c.index front.length, packet) ::
          (o.filesFrom c.index (front.length + 1) back ++ rest.flatMap o.files) := by
      simp [hsplit, files_eq_append hpackets]
    rw [hfiles] at hapart ⊢
    refine createAll_stopped (o.ofPackets_flatMap_files _) (List.pairwise_append.mp hapart).1 ?_
      hcause
    intro f hf
    obtain ⟨c', hc', hf⟩ := List.mem_flatMap.mp hf
    rcases List.mem_append.mp hc' with hc' | hc'
    · exact (hdone c' hc').isCreatable f hf
    · rw [List.mem_singleton.mp hc'] at hf
      exact hfront.isCreatable f hf

/-! ## One conversation -/

/-- The packets of a conversation up to one of them are its files with a number
below. -/
theorem mem_files_take_iff {o : Output} {c : Conversation} {front back : List Packet}
    (h : c.packets = front ++ back) {path : Path} {content : Bytes} :
    (path, content) ∈ o.files ⟨c.index, front⟩ ↔
      ∃ j < front.length, c.packets[j]? = some content ∧ path = o.packetPath c.index j := by
  rw [mem_files_iff]
  refine exists_congr fun j => ?_
  rw [h]
  constructor
  · rintro ⟨hj, hpath⟩
    have hlt := (List.getElem?_eq_some_iff.mp hj).1
    exact ⟨hlt, (List.getElem?_append_left hlt).trans hj, hpath⟩
  · rintro ⟨hlt, hj, hpath⟩
    exact ⟨(List.getElem?_append_left hlt).symm.trans hj, hpath⟩

/-- Writing a conversation makes the files of its packets up to the first that
is refused. -/
theorem write_wrote (o : Output) (c : Conversation) (d : Disk) :
    (d.Wrote (o.write c d).2 fun path content => ∃ j < o.firstRefused d c,
      c.packets[j]? = some content ∧ path = o.packetPath c.index j) ∧
    ((o.firstRefused d c = c.packets.length ∧ (o.write c d).1 = .ok (size c.packets)) ∨
      ∃ packet cause, c.packets[o.firstRefused d c]? = some packet ∧
        d.create (o.packetPath c.index (o.firstRefused d c)) packet = .error cause ∧
          (o.write c d).1 =
            .error (.notWritten (o.packetPath c.index (o.firstRefused d c)) cause)) := by
  have hone : [c].flatMap o.files = o.files c := by simp
  have hsingle : [c].Pairwise fun c c' => c.index ≠ c'.index := List.pairwise_singleton _ c
  rcases Nat.lt_or_eq_of_le (o.firstRefused_le d c) with hlt | heq
  · obtain ⟨front, packet, back, cause, hpackets, hlength, hfront, hcause⟩ := exists_refused hlt
    have hends : o.Ends d [c] [] [⟨c.index, front⟩] _ :=
      .stopped rfl (fun _ h => nomatch h) hpackets hfront hcause
    obtain ⟨after, hafter, hwrote⟩ := hends.createAll hsingle
    rw [hone] at hafter
    rw [write_eq, hafter, ← hlength]
    refine ⟨?_, .inr ⟨packet, cause, ?_, hcause, rfl⟩⟩
    · simpa [mem_files_take_iff hpackets] using hwrote
    · simp [hpackets]
  · have hends : o.Ends d [c] [c] [] none := .written (by
      simpa using firstRefused_eq_length_iff.mp heq)
    obtain ⟨after, hafter, hwrote⟩ := hends.createAll hsingle
    rw [hone] at hafter
    rw [write_eq, hafter, heq]
    refine ⟨?_, .inl ⟨rfl, rfl⟩⟩
    have hall : c.packets = c.packets ++ [] := (List.append_nil _).symm
    simpa [mem_files_take_iff hall] using hwrote

theorem samePlaces_write (o : Output) (c : Conversation) (d : Disk) :
    o.SamePlaces d (o.write c d).2 := by
  have hdisk : (o.write c d).2 = (d.createAll (o.files c)).2 := by
    rw [write_eq]
    split <;> next h => rw [h]
  rw [hdisk]
  exact samePlaces_createAll (o.ofPackets_files c) d

/-- Writing one conversation. Of its packets those before the first that is
refused have their files afterwards, each with the packet's bytes for all its
content, and nothing else on the disk is changed. What is at the paths of the
others, if anything, is what was there. If none is refused, the result is the
number of bytes of all packets; otherwise it names the path of the one that
is, and the reason. -/
theorem write_up_to_first_refused (o : Output) (c : Conversation) (d : Disk) :
    let m := o.firstRefused d c
    let r := o.write c d
    (d.Wrote r.2 fun path content =>
      ∃ j < m, c.packets[j]? = some content ∧ path = o.packetPath c.index j) ∧
    (∀ j, m ≤ j → r.2.lookUp (o.packetPath c.index j) = d.lookUp (o.packetPath c.index j)) ∧
    ((m = c.packets.length ∧ r.1 = .ok (c.packets.map fun packet => packet.length).sum) ∨
      ∃ packet cause, c.packets[m]? = some packet ∧
        d.create (o.packetPath c.index m) packet = .error cause ∧
          r.1 = .error (.notWritten (o.packetPath c.index m) cause)) := by
  intro m r
  obtain ⟨hwrote, hresult⟩ := o.write_wrote c d
  refine ⟨hwrote, ?_, ?_⟩
  · intro j hj
    rw [Disk.lookUp, Disk.lookUp, (o.samePlaces_write c d).place]
    cases hl : d.resolve (o.packetPath c.index j) with
    | error e => rfl
    | ok l =>
      have hkept : r.2.find? l = d.find? l := by
        refine hwrote.keeps l ?_
        rintro path content ⟨j', hj', -, rfl⟩ hl'
        obtain rfl : j' = j := (Disk.resolve_packetPath_inj hl' hl).2
        exact Nat.not_lt.mpr hj hj'
      simp only [hkept]
  · rwa [size, List.length_flatten] at hresult

/-- The second of three packets meets a directory. The first takes the place of
an old file, and the old file of the third stays. -/
theorem write_up_to_first_refused_of_directory :
    let o : Output := ⟨[], "a"⟩
    let place : String → Location := fun name => [Text.Utf8.ofString name]
    let d : Disk := ⟨[(place "a-conv-0-packet-0.dat", .file [9, 9, 9] true),
      (place "a-conv-0-packet-1.dat", .directory),
      (place "a-conv-0-packet-2.dat", .file [8] false)], []⟩
    let r := o.write ⟨0, [[1], [2], [3]]⟩ d
    r.1 = .error (.notWritten (Text.Utf8.ofString "a-conv-0-packet-1.dat") .isADirectory) ∧
      r.2.find? (place "a-conv-0-packet-0.dat") = some (.file [1] true) ∧
      r.2.lookUp (Text.Utf8.ofString "a-conv-0-packet-2.dat") = .ok (.file [8] false) := by
  intro o place d r
  have hfirst : o.firstRefused d ⟨0, [[1], [2], [3]]⟩ = 1 := by decide +kernel
  obtain ⟨hwrote, hkept, hresult⟩ := o.write_up_to_first_refused ⟨0, [[1], [2], [3]]⟩ d
  rw [hfirst] at hwrote hkept hresult
  refine ⟨?_, ?_, ?_⟩
  · obtain ⟨hlength, -⟩ | ⟨packet, cause, hpacket, hcause, hr⟩ := hresult
    · cases hlength
    · have hpath : o.packetPath 0 1 = Text.Utf8.ofString "a-conv-0-packet-1.dat" := by
        decide +kernel
      have hdirectory : d.create (o.packetPath 0 1) packet = .error .isADirectory := by
        obtain rfl : [2] = packet := Option.some.inj hpacket
        decide +kernel
      obtain rfl : cause = .isADirectory := Except.error.inj (hcause.symm.trans hdirectory)
      rw [← hpath]
      exact hr
  · obtain ⟨l, hl, -, hfound⟩ := hwrote.holds _ [1] ⟨0, by decide, rfl, rfl⟩
    have hplace : d.resolve (o.packetPath 0 0) = .ok (place "a-conv-0-packet-0.dat") := by
      decide +kernel
    obtain rfl : l = place "a-conv-0-packet-0.dat" := Except.ok.inj (hl.symm.trans hplace)
    exact hfound
  · have hpath : o.packetPath 0 2 = Text.Utf8.ofString "a-conv-0-packet-2.dat" := by
      decide +kernel
    have hthird := hkept 2 (by decide)
    rw [show (⟨0, [[1], [2], [3]]⟩ : Conversation).index = 0 from rfl, hpath] at hthird
    rw [hthird]
    decide +kernel

end Output

/-! ## Totals -/

/-- The totals with conversations that have been written. -/
def Statistics.grown (t : Statistics) (cs : List Conversation) : Statistics where
  conversations := t.conversations + cs.length
  packets := t.packets + (cs.map fun c => c.packets.length).sum
  bytesWritten := t.bytesWritten + (cs.map fun c => Output.size c.packets).sum

@[simp] theorem Statistics.grown_nil (t : Statistics) : t.grown [] = t := rfl

theorem Statistics.grown_append (t : Statistics) (cs more : List Conversation) :
    t.grown (cs ++ more) = (t.grown cs).grown more := by
  simp [grown, Nat.add_assoc]

namespace Progress

/-- The run after conversations have been written in full. -/
def savedAll (s : Progress) (cs : List Conversation) (disk : Disk) : Progress :=
  { s with disk := disk, statistics := s.statistics.grown cs, dots := s.dots + cs.length }

theorem savedAll_saved (s : Progress) (c : Conversation) (cs : List Conversation)
    (next after : Disk) :
    (s.saved c (Output.size c.packets) next).savedAll cs after = s.savedAll (c :: cs) after := by
  simp only [savedAll, saved, Statistics.grown, List.length_cons, List.map_cons, List.sum_cons,
    Progress.mk.injEq, Statistics.mk.injEq, true_and]
  omega

end Progress

namespace Extraction

/-- Conversations whose files are all made are saved before the others. -/
theorem saveAll_append {o : Output} {done : List Conversation} (more : List Conversation) :
    ∀ {s : Progress} {after : Disk}, s.disk.createAll (done.flatMap o.files) = (none, after) →
      saveAll o (done ++ more) s = saveAll o more (s.savedAll done after) := by
  induction done with
  | nil =>
    intro s after h
    obtain rfl : s.disk = after := (Prod.mk.inj h).2
    rfl
  | cons c done ih =>
    intro s after h
    rw [List.flatMap_cons, Disk.createAll_append] at h
    cases hfirst : s.disk.createAll (o.files c) with
    | mk failure next =>
      rw [hfirst] at h
      cases failure with
      | some e => cases h
      | none =>
        have hsave : save o c s = ⟨none, s.saved c (Output.size c.packets) next⟩ := by
          rw [save_eq, hfirst]
        rw [List.cons_append, saveAll, hsave, ← Progress.savedAll_saved s c done next after]
        exact ih h

/-- Saving conversations is counting those that are written. -/
theorem saveAll_of_ends {o : Output} {cs done begun : List Conversation}
    {failure : Option Failure} {s : Progress} (h : o.Ends s.disk cs done begun failure)
    (hcs : cs.Pairwise fun c c' => c.index ≠ c'.index) :
    ∃ after, saveAll o cs s = ⟨failure, s.savedAll done after⟩ ∧
      s.disk.Wrote after fun path content => (path, content) ∈ (done ++ begun).flatMap o.files := by
  cases h with
  | written hall =>
    obtain ⟨after, hafter, hwrote⟩ := (Output.Ends.written hall).createAll hcs
    refine ⟨after, ?_, hwrote⟩
    have hsaved := saveAll_append [] hafter
    rwa [List.append_nil] at hsaved
  | @stopped _ rest c front back packet cause hsplit hdone hpackets hfront hcause =>
    obtain rfl := hsplit
    have hnone : done.Pairwise fun c c' => c.index ≠ c'.index :=
      hcs.sublist (List.sublist_append_left done (c :: rest))
    have hone : (done ++ [c]).Pairwise fun c c' => c.index ≠ c'.index :=
      hcs.sublist (List.Sublist.append_left (by simp) done)
    obtain ⟨mid, hmid, -⟩ := (Output.Ends.written hdone).createAll hnone
    have hnext : done ++ [c] = done ++ c :: [] := rfl
    obtain ⟨after, hafter, hwrote⟩ :=
      (Output.Ends.stopped hnext hdone hpackets hfront hcause).createAll hone
    rw [List.flatMap_append, Disk.createAll_append, hmid] at hafter
    have hlast : mid.createAll (o.files c) =
        (some (.notWritten (o.packetPath c.index front.length) cause), after) := by
      simpa using hafter
    refine ⟨after, ?_, hwrote⟩
    rw [saveAll_append (c :: rest) hmid, saveAll, save_eq]
    simp only [show (s.savedAll done mid).disk = mid from rfl, hlast]
    rfl

/-- What any run leaves: on the disk the files of the conversations written and
of the one begun, in the totals and in dots those written. -/
theorem run_ends (a : Analyzer) (mode : Mode) {capture directory : Path} {o : Output}
    (statistics : Statistics) (disk : Disk) (ho : Output.ofCapture capture directory = .ok o) :
    ∃ done begun failure, o.Ends disk (intake a mode capture).1 done begun failure ∧
      let r := run a mode capture directory statistics disk
      r.failure = failure.or (intake a mode capture).2 ∧
        (disk.Wrote r.progress.disk fun path content =>
          (path, content) ∈ (done ++ begun).flatMap o.files) ∧
        r.progress.statistics = statistics.grown done ∧ r.progress.dots = done.length := by
  obtain ⟨done, begun, failure, hends⟩ := o.exists_ends disk (intake a mode capture).1
  refine ⟨done, begun, failure, hends, ?_⟩
  obtain ⟨after, hafter, hwrote⟩ :=
    saveAll_of_ends (s := .start disk statistics) hends (intake_distinct a mode capture)
  have hrun := run_unasked a mode statistics disk ho
  rw [saveIntake, hafter] at hrun
  have hfailure : (run a mode capture directory statistics disk).failure =
      failure.or (intake a mode capture).2 := by
    have := congrArg (fun r => r.failure) hrun
    cases failure <;> exact this
  have hprogress : (run a mode capture directory statistics disk).progress.unasked =
      (Progress.start disk statistics).savedAll done after := by
    have := congrArg (fun r => r.progress) hrun
    cases failure <;> exact this
  refine ⟨hfailure, ?_, ?_, ?_⟩
  · have hdisk := congrArg (fun s => s.disk) hprogress
    have hdisk : (run a mode capture directory statistics disk).progress.disk = after := hdisk
    rw [hdisk]
    exact hwrote
  · exact congrArg (fun s => s.statistics) hprogress
  · have hdots := congrArg (fun s => s.dots) hprogress
    exact hdots.trans (Nat.zero_add _)

/-- A run goes through if all conversations are had and all can be written. -/
theorem run_failure_eq_none_iff {a : Analyzer} {mode : Mode} {capture directory : Path}
    {statistics : Statistics} {disk : Disk} :
    (run a mode capture directory statistics disk).failure = none ↔
      ∃ o cs, Output.ofCapture capture directory = .ok o ∧
        intake a mode capture = (cs, none) ∧ ∀ c ∈ cs, o.IsWritable disk c := by
  cases ho : Output.ofCapture capture directory with
  | error e => simp [run, ho]
  | ok o =>
    obtain ⟨done, begun, failure, hends, hfailure, -⟩ := run_ends a mode statistics disk ho
    rw [hfailure]
    constructor
    · intro hnone
      cases hends with
      | written hall => exact ⟨o, _, rfl, Prod.ext rfl hnone, hall⟩
      | stopped _ _ _ _ _ => cases hnone
    · rintro ⟨o', cs, heq, hintake, hall⟩
      obtain rfl := Except.ok.inj heq
      rw [hintake] at hends ⊢
      have hends : o.Ends disk cs done begun failure := hends
      cases hends with
      | written _ => rfl
      | @stopped _ rest c front back packet cause hsplit _ hpackets _ hcause =>
        have hc := hall c (by simp [hsplit]) front.length (by simp [hpackets])
        exact absurd hc ((Disk.not_isCreatable_iff packet).mpr ⟨cause, hcause⟩)

end Extraction
end CaptureSplit
