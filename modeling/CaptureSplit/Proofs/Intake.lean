/-
CaptureSplit.Proofs.Intake — a run as taking and saving.

In either mode a run takes conversations from the analyzer until there are
no more, or until an answer cannot be used (`intake`), and saves them in
order until one cannot be written (`saveIntake`). By reports the two
alternate, but saving asks nothing and taking looks at no file, so apart
from the record of the questions a run comes to the same as taking all and
then saving all (`run_unasked`). What a run does to the disk is therefore
to make the files of its intake, one after the other (`run_disk`).

By reports, a conversation is had if its dump can be read (`Analyzer.Dumps`),
and the first that is not (`Analyzer.DumpFails`) ends the taking; by fields,
all are had or none. The conversations of an intake have different indices
(`intake_distinct`).
-/
import CaptureSplit.Proofs.Gathering
import CaptureSplit.Proofs.Writing

namespace CaptureSplit

/-! ## Dumps -/

namespace Analyzer

/-- The analyzer dumps a conversation with these packets, one in each row. -/
def Dumps (a : Analyzer) (capture : Path) (i : Nat) (packets : List Packet) : Prop :=
  ∃ dump, a.followReport capture i = .ok dump ∧
    List.Forall₂ (fun row packet => Packet.Row packet row.toList) (Report.rows .follow dump) packets

/-- The conversation cannot be had: it is not dumped, or a row of the dump, the
first of its kind, cannot be read. -/
inductive DumpFails (a : Analyzer) (capture : Path) (i : Nat) : Failure → Prop where
  | call {e : Failure} : a.followReport capture i = .error e → DumpFails a capture i e
  | row {dump row : String} {front back : List String} {e : Failure} :
    a.followReport capture i = .ok dump → Report.rows .follow dump = front ++ row :: back →
    (∀ r ∈ front, ∃ packet, Packet.Row packet r.toList) → Packet.ofLine row = .error e →
    DumpFails a capture i e

end Analyzer

/-! ## Questions left aside -/

/-- The run without the record of its questions. -/
def Progress.unasked (s : Progress) : Progress := { s with queries := [] }

/-- The outcome without the record of the questions. -/
def Outcome.unasked (o : Outcome) : Outcome := { o with progress := o.progress.unasked }

namespace Extraction

theorem save_unasked (o : Output) (c : Conversation) (s : Progress) :
    (save o c s).unasked = save o c s.unasked := by
  simp only [save_eq, Progress.unasked]
  split <;> rfl

theorem saveAll_unasked (o : Output) : ∀ (cs : List Conversation) (s : Progress),
    (saveAll o cs s).unasked = saveAll o cs s.unasked
  | [], s => rfl
  | c :: cs, s => by
      rw [saveAll, saveAll, ← save_unasked]
      cases save o c s with
      | mk failure after =>
        cases failure with
        | none => exact saveAll_unasked o cs after
        | some e => rfl

/-! ## Taking -/

/-- The conversations of the given indices, up to the first that cannot be
had, and the failure which that is. -/
def fetch (a : Analyzer) (capture : Path) : List Nat → List Conversation × Option Failure
  | [] => ([], none)
  | index :: rest =>
    match a.followReport capture index with
    | .error e => ([], some e)
    | .ok report =>
      match followPackets report with
      | .error e => ([], some e)
      | .ok packets =>
        let (cs, stop) := fetch a capture rest
        (⟨index, packets⟩ :: cs, stop)

/-- What a run takes from the analyzer: the conversations to be saved, and
the failure that keeps it from having more. -/
def intake (a : Analyzer) (mode : Mode) (capture : Path) :
    List Conversation × Option Failure :=
  match mode with
  | .report =>
    match a.conversationReport capture with
    | .error e => ([], some e)
    | .ok report => fetch a capture (List.range (Report.rowCount .conversations report))
  | .fields =>
    match a.udpEntries capture with
    | .error e => ([], some e)
    | .ok entries =>
      match Dissection.group entries with
      | .error e => ([], some e)
      | .ok cs => (cs, none)

/-- Saves what has been taken, and fails as the taking did. -/
def saveIntake (o : Output) (taken : List Conversation × Option Failure) (s : Progress) :
    Outcome :=
  match saveAll o taken.1 s with
  | ⟨none, after⟩ => ⟨taken.2, after⟩
  | stopped => stopped

theorem saveIntake_cons (o : Output) (c : Conversation) (cs : List Conversation)
    (stop : Option Failure) (s : Progress) :
    saveIntake o (c :: cs, stop) s =
      match save o c s with
      | ⟨none, after⟩ => saveIntake o (cs, stop) after
      | stopped => stopped := by
  simp only [saveIntake, saveAll]
  cases save o c s with
  | mk failure after => cases failure <;> rfl

theorem saveIntake_none (o : Output) (cs : List Conversation) (s : Progress) :
    saveIntake o (cs, none) s = saveAll o cs s := by
  simp only [saveIntake]
  cases saveAll o cs s with
  | mk failure after => cases failure <;> rfl

theorem saveIntake_disk (o : Output) (taken : List Conversation × Option Failure)
    (s : Progress) :
    (saveIntake o taken s).progress.disk = (s.disk.createAll (taken.1.flatMap o.files)).2 := by
  rw [← saveAll_eq, saveIntake]
  cases saveAll o taken.1 s with
  | mk failure after => cases failure <;> rfl

theorem followEach_unasked (a : Analyzer) (o : Output) (capture : Path) :
    ∀ (indices : List Nat) (s : Progress),
      (followEach a o capture indices s).unasked =
        saveIntake o (fetch a capture indices) s.unasked
  | [], s => rfl
  | index :: rest, s => by
      rw [followEach, fetch]
      cases a.followReport capture index with
      | error e => rfl
      | ok report =>
        simp only
        cases followPackets report with
        | error e => rfl
        | ok packets =>
          have hasked : (s.asked (.follow capture index)).unasked = s.unasked := rfl
          simp only
          rw [saveIntake_cons, ← hasked, ← save_unasked]
          cases save o ⟨index, packets⟩ (s.asked (.follow capture index)) with
          | mk failure after =>
            cases failure with
            | none => exact followEach_unasked a o capture rest after
            | some e => rfl

/-- A run takes its conversations and saves them. -/
theorem run_unasked (a : Analyzer) (mode : Mode) {capture directory : Path}
    (statistics : Statistics) (disk : Disk) {o : Output}
    (h : Output.ofCapture capture directory = .ok o) :
    (run a mode capture directory statistics disk).unasked =
      saveIntake o (intake a mode capture) (.start disk statistics) := by
  rw [run, h]
  cases mode with
  | report =>
    simp only [byReports, intake]
    cases a.conversationReport capture with
    | error e => rfl
    | ok report => exact followEach_unasked a o capture _ _
  | fields =>
    simp only [byFields, intake]
    cases a.udpEntries capture with
    | error e => rfl
    | ok entries =>
      simp only
      cases Dissection.group entries with
      | error e => rfl
      | ok cs =>
        rw [saveIntake_none]
        exact saveAll_unasked o cs _

/-- What a run makes of the disk: the files of its conversations, up to the
first that cannot be made. -/
theorem run_disk (a : Analyzer) (mode : Mode) {capture directory : Path}
    (statistics : Statistics) (disk : Disk) {o : Output}
    (h : Output.ofCapture capture directory = .ok o) :
    (run a mode capture directory statistics disk).progress.disk =
      (disk.createAll ((intake a mode capture).1.flatMap o.files)).2 := by
  have hrun := congrArg (fun outcome => outcome.progress.disk)
    (run_unasked a mode statistics disk h)
  exact hrun.trans (saveIntake_disk o _ _)

/-! ## Questions -/

theorem save_queries (o : Output) (c : Conversation) (s : Progress) :
    (save o c s).progress.queries = s.queries := by
  rw [save_eq]
  split <;> rfl

theorem save_dots (o : Output) (c : Conversation) (s : Progress) :
    (save o c s).progress.dots = s.dots + if (save o c s).failure = none then 1 else 0 := by
  rw [save_eq]
  split <;> rfl

/-- The dumps asked for, in order, are one more than the conversations saved, as
far as there are any. -/
theorem followEach_queries_take (a : Analyzer) (o : Output) (capture : Path) (indices : List Nat) :
    ∀ s : Progress, let r := followEach a o capture indices s
      ∃ n, r.progress.dots = s.dots + n ∧
        r.progress.queries = s.queries ++ (indices.take (n + 1)).map (Query.follow capture) ∧
          (r.failure = none → n = indices.length) := by
  induction indices with
  | nil =>
    intro s
    exact ⟨0, rfl, by simp [followEach], fun _ => rfl⟩
  | cons index rest ih =>
    intro s
    have hfirst : (s.asked (.follow capture index)).queries =
        s.queries ++ ((index :: rest).take 1).map (Query.follow capture) := rfl
    simp only [followEach]
    cases a.followReport capture index with
    | error e => exact ⟨0, rfl, hfirst, fun h => by cases h⟩
    | ok report =>
      simp only
      cases followPackets report with
      | error e => exact ⟨0, rfl, hfirst, fun h => by cases h⟩
      | ok packets =>
        have hqueries := save_queries o ⟨index, packets⟩ (s.asked (.follow capture index))
        have hdots := save_dots o ⟨index, packets⟩ (s.asked (.follow capture index))
        rw [hfirst] at hqueries
        simp only
        cases hsave : save o ⟨index, packets⟩ (s.asked (.follow capture index)) with
        | mk failure after =>
          rw [hsave] at hqueries hdots
          cases failure with
          | some e => exact ⟨0, hdots, hqueries, fun h => by cases h⟩
          | none =>
            obtain ⟨n, hn, hlater, hall⟩ := ih after
            have hafter : after.queries = s.queries ++ [.follow capture index] := hqueries
            have hone : after.dots = s.dots + 1 := hdots
            refine ⟨n + 1, ?_, ?_, fun h => congrArg (· + 1) (hall h)⟩
            · rw [hn, hone]
              omega
            · simp [hlater, hafter]

/-- Where no dump is wanting, each has been asked for once, in order. -/
theorem followEach_queries (a : Analyzer) (o : Output) (capture : Path) (indices : List Nat)
    (s : Progress) (h : (followEach a o capture indices s).failure = none) :
    (followEach a o capture indices s).progress.queries =
      s.queries ++ indices.map (Query.follow capture) := by
  obtain ⟨n, -, hqueries, hall⟩ := followEach_queries_take a o capture indices s
  rw [hqueries, hall h, List.take_of_length_le (Nat.le_succ _)]

/-! ## What is taken -/

theorem prefix_of_fetch (a : Analyzer) (capture : Path) : ∀ indices : List Nat,
    (fetch a capture indices).1.map Conversation.index <+: indices
  | [] => List.prefix_rfl
  | index :: rest => by
      rw [fetch]
      split
      · exact List.nil_prefix
      · split
        · exact List.nil_prefix
        · exact List.prefix_cons_inj index |>.mpr (prefix_of_fetch a capture rest)

/-- The next conversation is had with the packets of its dump, or taking ends
with it. -/
theorem fetch_cons (a : Analyzer) (capture : Path) (i : Nat) (rest : List Nat) :
    (∃ packets, a.Dumps capture i packets ∧ fetch a capture (i :: rest) =
        (⟨i, packets⟩ :: (fetch a capture rest).1, (fetch a capture rest).2)) ∨
      ∃ e, a.DumpFails capture i e ∧ fetch a capture (i :: rest) = ([], some e) := by
  rw [fetch]
  split
  · next e he => exact .inr ⟨e, .call he, rfl⟩
  · next dump hdump =>
    split
    · next e he =>
      obtain ⟨front, row, back, hrows, hfront, hrow⟩ := Packet.ofLines_eq_error_iff.mp he
      exact .inr ⟨e, .row hdump hrows hfront hrow, rfl⟩
    · next packets hpackets =>
      exact .inl ⟨packets, ⟨dump, hdump, Packet.ofLines_eq_ok_iff.mp hpackets⟩, rfl⟩

theorem dumps_of_mem_fetch {a : Analyzer} {capture : Path} {indices : List Nat} :
    ∀ c ∈ (fetch a capture indices).1, a.Dumps capture c.index c.packets := by
  induction indices with
  | nil =>
    intro c hc
    cases hc
  | cons i rest ih =>
    rcases fetch_cons a capture i rest with ⟨packets, hdumps, heq⟩ | ⟨e, -, heq⟩
    · rw [heq]
      exact List.forall_mem_cons.mpr ⟨hdumps, ih⟩
    · rw [heq]
      intro c hc
      cases hc

theorem map_index_of_fetch {a : Analyzer} {capture : Path} {indices : List Nat}
    (h : (fetch a capture indices).2 = none) :
    (fetch a capture indices).1.map Conversation.index = indices := by
  induction indices with
  | nil => rfl
  | cons i rest ih =>
    rcases fetch_cons a capture i rest with ⟨packets, -, heq⟩ | ⟨e, -, heq⟩
    · rw [heq] at h ⊢
      rw [List.map_cons, ih h]
    · rw [heq] at h
      cases h

/-- Taking ends early with the first conversation that cannot be had. -/
theorem dumpFails_of_fetch {a : Analyzer} {capture : Path} {indices : List Nat} {e : Failure}
    (h : (fetch a capture indices).2 = some e) : ∃ i rest,
      indices = (fetch a capture indices).1.map Conversation.index ++ i :: rest ∧
        a.DumpFails capture i e := by
  induction indices with
  | nil => cases h
  | cons i rest ih =>
    rcases fetch_cons a capture i rest with ⟨packets, -, heq⟩ | ⟨e', hfails, heq⟩
    · rw [heq] at h ⊢
      obtain ⟨j, later, hrest, hfails⟩ := ih h
      exact ⟨j, later, by rw [List.map_cons, List.cons_append, ← hrest], hfails⟩
    · rw [heq] at h ⊢
      obtain rfl : e' = e := Option.some.inj h
      exact ⟨i, rest, rfl, hfails⟩

theorem intake_fields_eq_iff {a : Analyzer} {capture : Path} {cs : List Conversation} :
    intake a .fields capture = (cs, none) ↔
      ∃ entries, a.udpEntries capture = .ok entries ∧ Dissection.group entries = .ok cs := by
  simp only [intake]
  cases a.udpEntries capture with
  | error e => simp
  | ok entries =>
    simp only [Except.ok.injEq, exists_eq_left']
    cases Dissection.group entries <;> simp

/-- The conversations of a run have different indices. -/
theorem intake_distinct (a : Analyzer) (mode : Mode) (capture : Path) :
    (intake a mode capture).1.Pairwise fun c c' => c.index ≠ c'.index := by
  cases mode with
  | report =>
    simp only [intake]
    split
    · exact List.Pairwise.nil
    · next report _ =>
      have hindices := prefix_of_fetch a capture
        (List.range (Report.rowCount .conversations report))
      exact List.pairwise_map.mp (List.nodup_range.sublist hindices.sublist)
  | fields =>
    simp only [intake]
    split
    · exact List.Pairwise.nil
    · split
      · exact List.Pairwise.nil
      · next cs hcs => exact (Dissection.group_eq_ok hcs).1.ascending.imp Nat.ne_of_lt

/-- Where the dumps of all indices can be read, all conversations are had. -/
theorem fetch_eq {a : Analyzer} {capture : Path} {packets : Nat → List Packet} :
    ∀ {indices : List Nat},
      (∀ i ∈ indices, ∃ report, a.followReport capture i = .ok report ∧
        followPackets report = .ok (packets i)) →
      fetch a capture indices = (indices.map fun i => ⟨i, packets i⟩, none)
  | [], _ => rfl
  | i :: rest, h => by
      obtain ⟨report, hreport, hpackets⟩ := h i (by simp)
      rw [fetch, hreport]
      simp only
      rw [hpackets, fetch_eq fun j hj => h j (by simp [hj])]
      rfl

end Extraction
end CaptureSplit
