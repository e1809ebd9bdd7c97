/-
CaptureSplit.Proofs.Reruns — a run on the disk that it has left.

What a run reports depends on the disk by the places of its packets only:
which of them can be made, and why the first that cannot is refused
(`run_alike`). A run leaves these places as they are, so a second run reports
what the first did.

The second run also makes the files of the first over again. Nothing but
these files stands at their places, whatever stood there before the first
run, and to make a file that is there already, with the content it has,
changes nothing (`createAll_again`).
-/
import CaptureSplit.Proofs.Stopping

namespace CaptureSplit

/-! ## Entries put in place again -/

namespace Disk

theorem putIn_self {entries : List (Location × Entry)} {l : Location} {e : Entry}
    (h : findIn entries l = some e) : putIn entries l e = entries := by
  induction entries with
  | nil => cases h
  | cons head rest ih =>
    obtain ⟨k, old⟩ := head
    by_cases hkl : k = l
    · rw [findIn, if_pos hkl] at h
      rw [putIn, if_pos hkl, Option.some.inj h]
    · rw [findIn, if_neg hkl] at h
      rw [putIn, if_neg hkl, ih h]

theorem put_self {d : Disk} {l : Location} {e : Entry} (hl : l ≠ []) (h : d.find? l = some e) :
    d.put l e = d := by
  rw [find?, if_neg hl] at h
  rw [put, putIn_self h]

/-- To make a file that has this content changes nothing. -/
theorem create_self {d : Disk} {p : Path} {l : Location} {content : Bytes} {executable : Bool}
    (hplace : d.resolve p = .ok l) (h : d.find? l = some (.file content executable)) :
    d.create p content = .ok d := by
  have hfile : d.find? l ≠ some .directory := by simp [h]
  refine create_eq_ok_iff.mpr ⟨l, hplace, hfile, (put_self (ne_nil_of_find? hfile) ?_).symm⟩
  rw [h]
  rfl

end Disk

/-! ## Disks with the same places -/

namespace Output

theorem SamePlaces.symm {o : Output} {d d' : Disk} (h : o.SamePlaces d d') : o.SamePlaces d' d :=
  ⟨⟨h.tree.home.symm, fun l => (h.tree.directory l).symm⟩, fun c p => (h.place c p).symm⟩

/-- On disks with the same places, making files ends in the same way. -/
theorem SamePlaces.createAll {o : Output} {files : List (Path × Bytes)} (hfiles : o.OfPackets files)
    {d d' : Disk} (h : o.SamePlaces d d') :
    (d'.createAll files).1 = (d.createAll files).1 ∧
      o.SamePlaces (d.createAll files).2 (d'.createAll files).2 := by
  refine ⟨?_, ((samePlaces_createAll hfiles d).symm.trans h).trans (samePlaces_createAll hfiles d')⟩
  induction files generalizing d d' with
  | nil => rfl
  | cons f files ih =>
    obtain ⟨path, content⟩ := f
    obtain ⟨⟨c, p, rfl⟩, hrest⟩ := List.forall_mem_cons.mp hfiles
    simp only [Disk.createAll]
    cases hcreate : d.create (o.packetPath c p) content with
    | error cause => rw [h.create_eq_error_iff.mpr hcreate]
    | ok next =>
      cases hcreate' : d'.create (o.packetPath c p) content with
      | error cause =>
        rw [h.create_eq_error_iff.mp hcreate'] at hcreate
        cases hcreate
      | ok next' =>
        exact ih hrest
          (((samePlaces_of_create hcreate).symm.trans h).trans (samePlaces_of_create hcreate'))

/-- A place that none of the files is at keeps what stands there. -/
theorem find?_createAll {o : Output} {files : List (Path × Bytes)} (hfiles : o.OfPackets files)
    {d : Disk} {l : Location} (hl : ∀ f ∈ files, d.resolve f.1 ≠ .ok l) :
    (d.createAll files).2.find? l = d.find? l := by
  induction files generalizing d with
  | nil => rfl
  | cons f files ih =>
    obtain ⟨path, content⟩ := f
    obtain ⟨⟨c, p, rfl⟩, hrest⟩ := List.forall_mem_cons.mp hfiles
    obtain ⟨hfirst, hl⟩ := List.forall_mem_cons.mp hl
    simp only [Disk.createAll]
    cases hcreate : d.create (o.packetPath c p) content with
    | error cause => rfl
    | ok next =>
      have hplaces := samePlaces_of_create hcreate
      have hl' : ∀ f ∈ files, next.resolve f.1 ≠ .ok l := by
        intro f hf
        obtain ⟨i, j, hpath⟩ := hrest f hf
        rw [hpath, hplaces.place, ← hpath]
        exact hl f hf
      obtain ⟨m, hm, hd, rfl⟩ := Disk.create_eq_ok_iff.mp hcreate
      have hne : m ≠ l := by
        rintro rfl
        exact hfirst hm
      exact (ih hrest hl').trans
        ((Disk.find?_put d l _ (Disk.ne_nil_of_find? hd)).trans (if_neg hne))

/-- Making different packets on the disk that this leaves comes to the same. -/
theorem createAll_again {o : Output} {files : List (Path × Bytes)} (hfiles : o.OfPackets files)
    (hdistinct : files.Pairwise o.Distinct) (d : Disk) :
    (d.createAll files).2.createAll files = d.createAll files := by
  induction files generalizing d with
  | nil => rfl
  | cons f files ih =>
    obtain ⟨path, content⟩ := f
    obtain ⟨⟨c, p, rfl⟩, hrest⟩ := List.forall_mem_cons.mp hfiles
    obtain ⟨hfirst, hdistinct⟩ := List.pairwise_cons.mp hdistinct
    simp only [Disk.createAll]
    cases hcreate : d.create (o.packetPath c p) content with
    | error cause => simp only [hcreate]
    | ok next =>
      have hplaces := samePlaces_of_create hcreate
      obtain ⟨l, hl, hd, hnext⟩ := Disk.create_eq_ok_iff.mp hcreate
      have hplace : next.resolve (o.packetPath c p) = .ok l := (hplaces.place c p).trans hl
      -- the others do not come back to the place of the first file
      have hkept : (next.createAll files).2.find? l = next.find? l :=
        find?_createAll hrest fun f hf hf' => (hfirst f hf).apart next l hplace hf'
      have hplace' : (next.createAll files).2.resolve (o.packetPath c p) = .ok l := by
        rw [(samePlaces_createAll hrest next).place, hplace]
      have hfile : (next.createAll files).2.find? l =
          some (.file content (Disk.keepsExecutable (d.find? l))) := by
        rw [hkept, hnext, Disk.find?_put d l _ (Disk.ne_nil_of_find? hd), if_pos rfl]
      simp only [Disk.create_self hplace' hfile]
      exact ih hrest hdistinct next

end Output

/-! ## Runs on two disks -/

/-- The runs have come to the same, on disks with the same places. -/
structure Progress.Alike (o : Output) (s s' : Progress) : Prop where
  places : o.SamePlaces s.disk s'.disk
  statistics : s'.statistics = s.statistics
  queries : s'.queries = s.queries
  dots : s'.dots = s.dots

/-- The runs end in the same way, having come to the same. -/
structure Outcome.Alike (o : Output) (r r' : Outcome) : Prop where
  failure : r'.failure = r.failure
  progress : r.progress.Alike o r'.progress

/-- Either both go through or both stop. -/
theorem Outcome.Alike.ends {o : Output} {r r' : Outcome} (h : r.Alike o r') :
    (∃ s s', r = ⟨none, s⟩ ∧ r' = ⟨none, s'⟩ ∧ s.Alike o s') ∨
      ∃ e s s', r = ⟨some e, s⟩ ∧ r' = ⟨some e, s'⟩ := by
  obtain ⟨failure, s⟩ := r
  obtain ⟨failure', s'⟩ := r'
  obtain rfl : failure' = failure := h.failure
  cases failure' with
  | none => exact .inl ⟨s, s', rfl, rfl, h.progress⟩
  | some e => exact .inr ⟨e, s, s', rfl, rfl⟩

theorem Outcome.Alike.eq {o : Output} {r r' : Outcome} (h : r.Alike o r')
    (hdisk : r'.progress.disk = r.progress.disk) : r' = r := by
  obtain ⟨failure, disk, statistics, queries, dots⟩ := r
  obtain ⟨failure', disk', statistics', queries', dots'⟩ := r'
  obtain rfl : failure' = failure := h.failure
  obtain rfl : disk' = disk := hdisk
  obtain rfl : statistics' = statistics := h.progress.statistics
  obtain rfl : queries' = queries := h.progress.queries
  obtain rfl : dots' = dots := h.progress.dots
  rfl

namespace Extraction

theorem asked_alike {o : Output} {s s' : Progress} (h : s.Alike o s') (q : Query) :
    (s.asked q).Alike o (s'.asked q) :=
  ⟨h.places, h.statistics, congrArg (· ++ [q]) h.queries, h.dots⟩

theorem save_alike {o : Output} {s s' : Progress} (h : s.Alike o s') (c : Conversation) :
    (save o c s).Alike o (save o c s') := by
  obtain ⟨hfailure, hplaces⟩ := h.places.createAll (o.ofPackets_files c)
  rw [save_eq, save_eq]
  cases hfirst : s.disk.createAll (o.files c) with
  | mk failure after =>
    cases hsecond : s'.disk.createAll (o.files c) with
    | mk failure' after' =>
      rw [hfirst, hsecond] at hfailure hplaces
      obtain rfl : failure' = failure := hfailure
      cases failure' with
      | some e => exact ⟨rfl, hplaces, h.statistics, h.queries, h.dots⟩
      | none =>
        refine ⟨rfl, hplaces, ?_, h.queries, congrArg (· + 1) h.dots⟩
        simp only [Progress.saved, h.statistics]

theorem saveAll_alike {o : Output} {cs : List Conversation} :
    ∀ {s s' : Progress}, s.Alike o s' → (saveAll o cs s).Alike o (saveAll o cs s') := by
  induction cs with
  | nil => exact fun h => ⟨rfl, h⟩
  | cons c cs ih =>
    intro s s' h
    have hsave := save_alike h c
    rw [saveAll, saveAll]
    rcases hsave.ends with ⟨t, t', hfirst, hsecond, halike⟩ | ⟨e, t, t', hfirst, hsecond⟩
    · rw [hfirst, hsecond]
      exact ih halike
    · rw [hfirst, hsecond] at hsave ⊢
      exact hsave

theorem followEach_alike {a : Analyzer} {o : Output} {capture : Path} {indices : List Nat} :
    ∀ {s s' : Progress}, s.Alike o s' →
      (followEach a o capture indices s).Alike o (followEach a o capture indices s') := by
  induction indices with
  | nil => exact fun h => ⟨rfl, h⟩
  | cons index rest ih =>
    intro s s' h
    have hasked := asked_alike h (.follow capture index)
    simp only [followEach]
    cases a.followReport capture index with
    | error e => exact ⟨rfl, hasked⟩
    | ok report =>
      simp only
      cases followPackets report with
      | error e => exact ⟨rfl, hasked⟩
      | ok packets =>
        have hsave := save_alike hasked ⟨index, packets⟩
        simp only
        rcases hsave.ends with ⟨t, t', hfirst, hsecond, halike⟩ | ⟨e, t, t', hfirst, hsecond⟩
        · rw [hfirst, hsecond]
          exact ih halike
        · rw [hfirst, hsecond] at hsave ⊢
          exact hsave

/-- On two disks with the same places, a run comes to the same. -/
theorem run_alike (a : Analyzer) (mode : Mode) {capture directory : Path} {o : Output}
    (statistics : Statistics) {disk disk' : Disk} (ho : Output.ofCapture capture directory = .ok o)
    (h : o.SamePlaces disk disk') :
    (run a mode capture directory statistics disk).Alike o
      (run a mode capture directory statistics disk') := by
  have hstart : (Progress.start disk statistics).Alike o (Progress.start disk' statistics) :=
    ⟨h, rfl, rfl, rfl⟩
  simp only [run, ho]
  cases mode with
  | report =>
    have hasked := asked_alike hstart (.conversations capture)
    simp only [byReports]
    cases a.conversationReport capture with
    | error e => exact ⟨rfl, hasked⟩
    | ok report => exact followEach_alike hasked
  | fields =>
    have hasked := asked_alike hstart (.dissection capture)
    simp only [byFields]
    cases a.udpEntries capture with
    | error e => exact ⟨rfl, hasked⟩
    | ok entries =>
      simp only
      cases Dissection.group entries with
      | error e => exact ⟨rfl, hasked⟩
      | ok cs => exact saveAll_alike hasked

/-- The run does not touch the places of its packets. -/
theorem run_samePlaces (a : Analyzer) (mode : Mode) {capture directory : Path} {o : Output}
    (statistics : Statistics) (disk : Disk) (ho : Output.ofCapture capture directory = .ok o) :
    o.SamePlaces disk (run a mode capture directory statistics disk).progress.disk := by
  rw [run_disk a mode statistics disk ho]
  exact Output.samePlaces_createAll (o.ofPackets_flatMap_files _) disk

/-- A run on the disk that it has left, from the same totals and with the same
answers, comes to the same outcome in all: it fails in the same way or not at
all, has the same totals, questions and dots, and leaves the disk as it is. -/
theorem run_again (a : Analyzer) (mode : Mode) (capture directory : Path) (statistics : Statistics)
    (disk : Disk) :
    let first := run a mode capture directory statistics disk
    run a mode capture directory statistics first.progress.disk = first := by
  intro first
  cases ho : Output.ofCapture capture directory with
  | error e => simp only [first, run, ho, Progress.start]
  | ok o =>
    refine (run_alike a mode statistics ho (run_samePlaces a mode statistics disk ho)).eq ?_
    simp only [run_disk a mode statistics _ ho]
    rw [Output.createAll_again (o.ofPackets_flatMap_files _)
      (o.flatMap_files_distinct (intake_distinct a mode capture))]

end Extraction
end CaptureSplit
