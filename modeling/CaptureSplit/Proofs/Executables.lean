/-
CaptureSplit.Proofs.Executables — which program answers a question.

A report is printed by the program that the setting names, be it a path or a
name to be searched for. A dissection is printed by a program that is always
called `tshark`, and the setting is taken for the directories to search it in.
So a program that prints reports need not be found for a dissection, and where
one is found it need not be the same (`executables_of_modes`):

* a setting that is the path of a program is no directory, and nothing is
  found in it (`Disk.executable_in_file`);
* a setting that is a bare name is a directory beneath the one that paths
  start from, and what is found there is the program of the reports only if
  directory and program are both called `tshark`.
-/
import CaptureSplit.Tshark
import CaptureSplit.Proofs.Directories
import CaptureSplit.Proofs.Endings
import CaptureSplit.Proofs.Encoding

namespace CaptureSplit

open CaptureSplit.Text.Utf8 (ofString toString?)

/-! ## Programs that are found -/

namespace Disk

theorem executable_eq_ok_iff {d : Disk} {p : Path} {l : Location} :
    d.executable p = .ok l ↔
      d.resolve p = .ok l ∧ ∃ content, d.find? l = some (.file content true) := by
  rw [executable]
  cases d.resolve p with
  | error e => simp
  | ok place =>
    simp only [Except.ok.injEq]
    split
    · next hfind =>
      simp only [reduceCtorEq, false_iff, not_and]
      rintro rfl ⟨content, hfile⟩
      rw [hfile] at hfind
      cases hfind
    · next content hfind =>
      simp only [Except.ok.injEq, iff_self_and]
      rintro rfl
      exact ⟨content, hfind⟩
    · next found hfile hfind =>
      simp only [reduceCtorEq, false_iff, not_and]
      rintro rfl ⟨content, hfile'⟩
      rw [hfile'] at hfind
      exact hfile content (Option.some.inj hfind).symm

/-- What is searched for is found in one of the directories. -/
theorem exists_of_search {d : Disk} {program : Name} {l : Location} {directories : List Path} :
    ∀ {denied : Bool} {last : SystemFault}, d.search program denied last directories = .ok l →
      ∃ directory ∈ directories, d.executable (directory.join program) = .ok l := by
  induction directories with
  | nil =>
    intro denied last h
    cases h
  | cons directory rest ih =>
    intro denied last h
    have hlater : ∀ {denied last}, d.search program denied last rest = .ok l →
        ∃ directory' ∈ directory :: rest, d.executable (directory'.join program) = .ok l := by
      intro denied last h
      obtain ⟨later, hlater, hfound⟩ := ih h
      exact ⟨later, List.mem_cons_of_mem _ hlater, hfound⟩
    rw [search] at h
    split at h
    · next place hplace =>
      rw [← Except.ok.inj h]
      exact ⟨directory, List.mem_cons_self, hplace⟩
    · exact hlater h
    · exact hlater h
    · exact hlater h
    · cases h

/-- The search in one directory comes to looking there. -/
theorem search_singleton (d : Disk) (program : Name) (directory : Path) :
    d.search program false .noSuchFile [directory] = d.executable (directory.join program) := by
  rw [search]
  split <;> simp_all [search]

theorem searchDirectories_eq_singleton {searchPath : Bytes} (hcolon : colon ∉ searchPath)
    (hlength : searchPath.length < pathLimit) : searchDirectories searchPath = [searchPath] := by
  have hshort : isOverlong searchPath = false := by
    simpa [isOverlong] using hlength
  rw [searchDirectories, List.splitOn_eq_singleton hcolon]
  simp [hshort]

/-- No program is as long as a path may not be. -/
theorem length_lt_of_programAt {d : Disk} {program searchPath : Bytes} {l : Location}
    (h : d.programAt program searchPath = .ok l) : program ≠ [] ∧ program.length < pathLimit := by
  rw [programAt] at h
  split at h
  · cases h
  · next hne =>
    refine ⟨hne, ?_⟩
    split at h
    · exact (resolve_eq_ok_iff.mp (executable_eq_ok_iff.mp h).1).2.2.1
    · obtain ⟨directory, -, hfound⟩ := exists_of_search h
      have hlength := (resolve_eq_ok_iff.mp (executable_eq_ok_iff.mp hfound).1).2.2.1
      rw [Path.join] at hlength
      split at hlength
      · exact hlength
      · split at hlength
        · exact hlength
        · split at hlength <;> simp at hlength <;> omega

/-- Nothing is found in a program. -/
theorem executable_in_file {d : Disk} {p : Path} {l : Location} (h : d.executable p = .ok l)
    {name : Name} (hslash : Path.slash ∉ name) (hzero : 0 ∉ name) :
    ∃ cause, d.executable (p.join name) = .error cause := by
  obtain ⟨hresolve, content, hfile⟩ := executable_eq_ok_iff.mp h
  rw [executable, resolve_join hresolve hslash hzero, enter, hfile]
  split
  · next cause _ => exact ⟨cause, rfl⟩
  · next place hplace =>
    split at hplace <;> cases hplace

/-- A name that does not lead up leads to itself, where it leads to a program. -/
theorem exists_eq_concat_of_executable {d : Disk} {directory : Path} {program : Name} {l : Location}
    (hslash : Path.slash ∉ program) (habove : program ≠ Path.above)
    (h : d.executable (directory.join program) = .ok l) : ∃ here, l = here ++ [program] := by
  obtain ⟨hresolve, content, hfile⟩ := executable_eq_ok_iff.mp h
  obtain ⟨here, -, henter⟩ := exists_enter_of_join hslash hresolve
  have hdirectory := directory_of_enter henter
  rw [enter, hdirectory] at henter
  simp only [if_neg habove] at henter
  split at henter
  · obtain rfl := Except.ok.inj henter
    rw [hfile] at hdirectory
    cases hdirectory
  · split at henter
    · cases henter
    · exact ⟨here, (Except.ok.inj henter).symm⟩

end Disk

/-! ## Commands -/

theorem Host.launch_eq_ok_iff {h : Host} {c : Command} {l : Launch} :
    h.launch c = .ok l ↔ c.hasNul = false ∧ c.isOverlong = false ∧
      h.disk.programAt c.program c.searchPath = .ok l.executable ∧
        l = ⟨l.executable, c.arguments, h.perform l.executable c.arguments⟩ := by
  rw [launch]
  cases c.hasNul with
  | true => simp
  | false =>
    cases h.disk.programAt c.program c.searchPath with
    | error e => simp
    | ok place =>
      cases c.isOverlong with
      | true => simp
      | false =>
        simp only [Bool.false_eq_true, if_false, Except.ok.injEq, true_and]
        constructor
        · rintro rfl
          exact ⟨rfl, rfl⟩
        · rintro ⟨rfl, hl⟩
          exact hl.symm

/-- A command that can be handed over starts what its program stands for. -/
theorem Host.exists_launch_iff {h : Host} {c : Command} (hnul : c.hasNul = false)
    (hlong : c.isOverlong = false) (place : Location) :
    (∃ l, h.launch c = .ok l ∧ l.executable = place) ↔
      h.disk.programAt c.program c.searchPath = .ok place := by
  constructor
  · rintro ⟨l, hl, rfl⟩
    exact (launch_eq_ok_iff.mp hl).2.2.1
  · intro hplace
    refine ⟨⟨place, c.arguments, h.perform place c.arguments⟩, ?_, rfl⟩
    exact launch_eq_ok_iff.mpr ⟨hnul, hlong, hplace, rfl⟩

theorem Host.launch_eq_error {h : Host} {c : Command} {cause : SystemFault}
    (hnul : c.hasNul = false) (hplace : h.disk.programAt c.program c.searchPath = .error cause) :
    h.launch c = .error cause := by
  simp only [launch, hnul, hplace, Bool.false_eq_true, if_false]

namespace Tshark

/-- A question for a report on a capture. -/
def AsksForReport (q : Query) (capture : Path) : Prop :=
  q = .conversations capture ∨ ∃ index, q = .follow capture index

theorem launch_report {t : Tshark} {h : Host} {q : Query} {capture : Path} {l : Launch}
    (hq : AsksForReport q capture) (hl : t.launch h q = .ok l) :
    ∃ statistic, h.launch (t.reportCommand h capture statistic) = .ok l := by
  rcases hq with rfl | ⟨index, rfl⟩
  · exact ⟨_, Packet.mapError_eq_ok_iff.mp hl⟩
  · exact ⟨_, Packet.mapError_eq_ok_iff.mp hl⟩

/-- Beside the capture and the filter, a dissection is given words that any
program can be given. -/
theorem argument_of_dissection {t : Tshark} {h : Host} {capture : Path} {a : Bytes}
    (ha : a ∈ (t.dissectionCommand h capture).arguments) :
    a = capture ∨ a = ofString t.filter ∨ 0 ∉ a ∧ a.length ≤ argumentLimit := by
  have hwords : ∀ word ∈ ["-r", "-Tpdml", "-n", "-Q", "-l", "-Y"],
      0 ∉ ofString word ∧ (ofString word).length ≤ argumentLimit := by
    decide
  rcases List.mem_append.mp ha with ha | ha
  · simp only [List.mem_cons, List.not_mem_nil, or_false] at ha
    rcases ha with rfl | rfl | rfl | rfl | rfl | rfl
    · exact .inr (.inr (hwords "-r" (by simp)))
    · exact .inl rfl
    · exact .inr (.inr (hwords "-Tpdml" (by simp)))
    · exact .inr (.inr (hwords "-n" (by simp)))
    · exact .inr (.inr (hwords "-Q" (by simp)))
    · exact .inr (.inr (hwords "-l" (by simp)))
  · split at ha
    · cases ha
    · simp only [List.mem_cons, List.not_mem_nil, or_false] at ha
      rcases ha with rfl | rfl
      · exact .inr (.inr (hwords "-Y" (by simp)))
      · exact .inr (.inl rfl)

/-- The program of a report is found by its setting. Nothing that the two
commands have in common keeps a dissection from being started. -/
theorem programAt_of_report {t : Tshark} {h : Host} {q : Query} {capture : Path} {l : Launch}
    (hq : AsksForReport q capture) (hl : t.launch h q = .ok l) :
    h.disk.programAt (ofString t.program) h.searchPath = .ok l.executable ∧
      (t.dissectionCommand h capture).searchPath = ofString t.program ∧
      (t.dissectionCommand h capture).hasNul = false ∧
      (t.dissectionCommand h capture).isOverlong = false := by
  obtain ⟨statistic, hlaunch⟩ := launch_report hq hl
  obtain ⟨hnul, hlong, hplace, -⟩ := Host.launch_eq_ok_iff.mp hlaunch
  obtain ⟨hne, hlength⟩ := Disk.length_lt_of_programAt hplace
  have hsearch : (t.dissectionCommand h capture).searchPath = ofString t.program := by
    have hprogram : t.program.isEmpty = false := by
      rw [Bool.eq_false_iff, ne_eq, String.isEmpty_iff]
      intro hempty
      rw [reportCommand, hempty] at hne
      exact hne rfl
    rw [dissectionCommand, hprogram]
    rfl
  refine ⟨hplace, hsearch, ?_, ?_⟩
  · simp only [reportCommand, Command.hasNul, Bool.or_eq_false_iff, List.any_eq_false,
      Bool.not_eq_true, List.contains_eq_mem, decide_eq_false_iff_not] at hnul
    have hdissector : (ofString dissector).contains 0 = false := by decide
    rw [Command.hasNul, hsearch, Bool.or_eq_false_iff, Bool.or_eq_false_iff, List.any_eq_false]
    refine ⟨⟨hdissector, by simpa using hnul.1.1⟩, ?_⟩
    intro a ha
    rw [List.contains_iff_mem]
    rcases argument_of_dissection ha with rfl | rfl | hword
    · exact hnul.2 a (by simp)
    · exact hnul.2 _ (by simp)
    · exact hword.1
  · simp only [reportCommand, Command.isOverlong, Bool.or_eq_false_iff, List.any_eq_false,
      decide_eq_true_eq, Nat.not_lt] at hlong
    rw [Command.isOverlong, hsearch, Bool.or_eq_false_iff, List.any_eq_false]
    refine ⟨?_, ?_⟩
    · intro a ha
      rw [decide_eq_true_eq, Nat.not_lt]
      rcases argument_of_dissection ha with rfl | rfl | hword
      · exact hlong.1 a (by simp)
      · exact hlong.1 _ (by simp)
      · exact hword.2
    · have hlimit : Disk.pathLimit + 5 ≤ argumentLimit := by decide
      simp only [reportCommand] at hlength
      rw [decide_eq_false_iff_not]
      omega

/-- The dissection of a capture that is there and whose path is text. -/
theorem launch_dissection {t : Tshark} {h : Host} {capture : Path} {text : String} {found : Entry}
    (htext : toString? capture = some text) (hthere : h.disk.lookUp capture = .ok found) :
    t.launch h (.dissection capture) = (h.launch (t.dissectionCommand h capture)).mapError
      fun e => .analyzerNotStarted t.program (notFound dissector e) := by
  simp only [launch, htext, launchDissection, hthere]
  cases h.launch (t.dissectionCommand h capture) <;> rfl

/-- A setting without a colon is one directory to search. -/
theorem programAt_dissector {d : Disk} {setting : Bytes} (hcolon : colon ∉ setting)
    (hlength : setting.length < Disk.pathLimit) :
    d.programAt (ofString dissector) setting =
      d.executable (Path.join setting (ofString dissector)) := by
  rw [← Disk.search_singleton, ← Disk.searchDirectories_eq_singleton hcolon hlength]
  rfl

/-- What the two ways of looking a name up have in common is called `tshark`,
in a directory that is called so, too. -/
theorem eq_dissector_of_programAt {d : Disk} {setting searchPath : Bytes} {place : Location}
    (hslash : Path.slash ∉ setting) (habove : setting ≠ Path.above)
    (hreport : d.programAt setting searchPath = .ok place)
    (hdissection : d.executable (Path.join setting (ofString dissector)) = .ok place) :
    setting = ofString dissector := by
  rw [Disk.programAt, if_neg (Disk.length_lt_of_programAt hreport).1,
    if_neg (by simpa using hslash)] at hreport
  obtain ⟨directory, -, hfound⟩ := Disk.exists_of_search hreport
  obtain ⟨here, hhere⟩ := Disk.exists_eq_concat_of_executable hslash habove hfound
  obtain ⟨here', hhere'⟩ :=
    Disk.exists_eq_concat_of_executable (by decide) (by decide) hdissection
  exact List.singleton_inj.mp (List.append_inj_right' (hhere.symm.trans hhere') rfl)

/-- Where a question for a report starts a program, the dissection starts the
same one if and only if the setting, taken for the directories to search, leads
there by the name of `tshark`. Of the settings without a colon, those with a
slash start nothing, and of the bare names `tshark` alone can start the same,
if it is found in a directory of that name. -/
theorem executables_of_modes {t : Tshark} {h : Host} {capture : Path} {q : Query} {l : Launch}
    {text : String} {found : Entry} (hq : AsksForReport q capture) (hl : t.launch h q = .ok l)
    (htext : toString? capture = some text) (hthere : h.disk.lookUp capture = .ok found) :
    ((∃ l', t.launch h (.dissection capture) = .ok l' ∧ l'.executable = l.executable) ↔
      h.disk.programAt (ofString dissector) (ofString t.program) = .ok l.executable) ∧
    (colon ∉ ofString t.program → Path.slash ∈ ofString t.program →
      ∃ cause, t.launch h (.dissection capture) =
        .error (.analyzerNotStarted t.program cause)) ∧
    (colon ∉ ofString t.program → Path.slash ∉ ofString t.program → t.program ≠ ".." →
      ((∃ l', t.launch h (.dissection capture) = .ok l' ∧ l'.executable = l.executable) ↔
        t.program = dissector ∧
          h.disk.executable (ofString "tshark/tshark") = .ok l.executable)) := by
  obtain ⟨hreport, hsearch, hnul, hlong⟩ := programAt_of_report hq hl
  have hlength := (Disk.length_lt_of_programAt hreport).2
  have hmeet : (∃ l', t.launch h (.dissection capture) = .ok l' ∧ l'.executable = l.executable) ↔
      h.disk.programAt (ofString dissector) (ofString t.program) = .ok l.executable := by
    rw [launch_dissection htext hthere, ← hsearch]
    simp only [Packet.mapError_eq_ok_iff]
    exact Host.exists_launch_iff hnul hlong l.executable
  refine ⟨hmeet, ?_, ?_⟩
  · intro hcolon hslash
    have hprogram : h.disk.executable (ofString t.program) = .ok l.executable := by
      rwa [Disk.programAt, if_neg (Disk.length_lt_of_programAt hreport).1,
        if_pos (by simpa using hslash)] at hreport
    obtain ⟨cause, hcause⟩ :
        ∃ cause, h.disk.executable (Path.join (ofString t.program) (ofString dissector)) =
          .error cause :=
      Disk.executable_in_file hprogram (by decide) (by decide)
    rw [← programAt_dissector hcolon hlength, ← hsearch] at hcause
    rw [launch_dissection htext hthere, Host.launch_eq_error hnul hcause]
    exact ⟨_, rfl⟩
  · intro hcolon hslash habove
    rw [hmeet, programAt_dissector hcolon hlength]
    constructor
    · intro hdissection
      have hsetting := eq_dissector_of_programAt hslash
        (fun h => habove (Text.Utf8.ofString_injective h)) hreport hdissection
      rw [hsetting] at hdissection
      exact ⟨Text.Utf8.ofString_injective hsetting, hdissection⟩
    · rintro ⟨hsetting, hdissection⟩
      rw [hsetting]
      exact hdissection

/-- A host whose one program is found by its path and by its name. -/
theorem executables_of_modes_path_and_name :
    let h := Host.ofEnding ⟨.exited 0, [], []⟩
    let capture := ofString "cap.pcap"
    let place := [ofString "bin", ofString "tshark"]
    let byPath : Tshark := ⟨"bin/tshark", "rtps"⟩
    let byName : Tshark := ⟨"tshark", "rtps"⟩
    (∃ l, byPath.launch h (.conversations capture) = .ok l ∧ l.executable = place) ∧
      (∃ cause, byPath.launch h (.dissection capture) =
        .error (.analyzerNotStarted "bin/tshark" cause)) ∧
      (∃ l, byName.launch h (.follow capture 0) = .ok l ∧ l.executable = place) ∧
      ¬ ∃ l, byName.launch h (.dissection capture) = .ok l ∧ l.executable = place := by
  intro h capture place byPath byName
  have hreport : byPath.launch h (.conversations capture) =
      .ok ⟨place, (byPath.reportCommand h capture "conv,udp").arguments, ⟨.exited 0, [], []⟩⟩ := by
    decide +kernel
  have hfollow : byName.launch h (.follow capture 0) =
      .ok ⟨place, (byName.reportCommand h capture "follow,udp,raw,0").arguments,
        ⟨.exited 0, [], []⟩⟩ := by
    decide +kernel
  have htext : toString? capture = some "cap.pcap" := by decide +kernel
  have hthere : h.disk.lookUp capture = .ok (.file [] false) := by rfl
  have hpath := (executables_of_modes (.inl rfl) hreport htext hthere).2.1 (by decide) (by decide)
  have hname := (executables_of_modes (.inr ⟨0, rfl⟩) hfollow htext hthere).2.2 (by decide)
    (by decide) (by decide)
  have hnone : h.disk.executable (ofString "tshark/tshark") = .error .noSuchFile := by rfl
  refine ⟨⟨_, hreport, rfl⟩, hpath, ⟨_, hfollow, rfl⟩, ?_⟩
  rw [hname, hnone]
  rintro ⟨-, ⟨⟩⟩

/-- The program that a host finds for both reports by the name of `tshark` is
not found for the dissection. -/
theorem dissection_of_bare_name :
    let t : Tshark := ⟨"tshark", "rtps"⟩
    let h := Host.ofEnding ⟨.exited 0, ofString onePacket, []⟩
    let capture := ofString "cap.pcap"
    let place := [ofString "bin", ofString "tshark"]
    (t.launch h (.conversations capture)).map (fun l => l.executable) = .ok place ∧
      (t.launch h (.follow capture 0)).map (fun l => l.executable) = .ok place ∧
      t.launch h (.dissection capture) =
        .error (.analyzerNotStarted "tshark" (.unableToFind "tshark")) := by
  decide +kernel

end Tshark
end CaptureSplit
