/-
CaptureSplit.Extraction — one run over a capture.

In report mode the conversations are counted in one report and then
fetched one by one; each is written before the next is asked for. In
fields mode one dissection is read and grouped as a whole before anything
is written. Either way a conversation counts in the statistics, and shows
as a dot, once all of its packets are on the disk; the first failure ends
the run and leaves what has been done.
-/
import CaptureSplit.Analyzer
import CaptureSplit.Output
import CaptureSplit.Report

namespace CaptureSplit

/-- How conversations are obtained from the analyzer. -/
inductive Mode where
  /-- By the fixed line offsets of printed reports. -/
  | report
  /-- By the fields of one dissection. -/
  | fields
  deriving DecidableEq

/-- What has been written completely. -/
structure Statistics where
  conversations : Nat
  packets : Nat
  bytesWritten : Nat
  deriving DecidableEq

/-- Nothing written. -/
def Statistics.zero : Statistics := ⟨0, 0, 0⟩

/-- A run in progress: the disk, the totals, the questions asked and the
dots printed so far. -/
structure Progress where
  disk : Disk
  statistics : Statistics
  queries : List Query
  dots : Nat
  deriving DecidableEq

/-- How a run or a part of it ended: with a failure or without one, and
in which state. -/
structure Outcome where
  failure : Option Failure
  progress : Progress
  deriving DecidableEq

namespace Progress

/-- Before anything has been done. -/
def start (disk : Disk) (statistics : Statistics) : Progress := ⟨disk, statistics, [], 0⟩

/-- The run after one more question. -/
def asked (s : Progress) (q : Query) : Progress := { s with queries := s.queries ++ [q] }

/-- The run after a conversation has been written in full. -/
def saved (s : Progress) (c : Conversation) (bytes : Nat) (disk : Disk) : Progress :=
  { s with
    disk := disk
    statistics :=
      ⟨s.statistics.conversations + 1, s.statistics.packets + c.packets.length,
        s.statistics.bytesWritten + bytes⟩
    dots := s.dots + 1 }

end Progress

namespace Extraction

/-! ## Saving -/

/-- Writes a conversation and counts it. -/
def save (o : Output) (c : Conversation) (s : Progress) : Outcome :=
  match o.write c s.disk with
  | (.ok bytes, disk) => ⟨none, s.saved c bytes disk⟩
  | (.error e, disk) => ⟨some e, { s with disk := disk }⟩

/-- Saves conversations in order, up to the first failure. -/
def saveAll (o : Output) : List Conversation → Progress → Outcome
  | [], s => ⟨none, s⟩
  | c :: rest, s =>
    match save o c s with
    | ⟨none, after⟩ => saveAll o rest after
    | stopped => stopped

/-! ## The two modes -/

/-- The packets in the rows of a follow report. -/
def followPackets (report : String) : Except Failure (List Packet) :=
  Packet.ofLines (Report.rows .follow report)

/-- Fetches and saves the conversations of the given indices in order. -/
def followEach (a : Analyzer) (o : Output) (capture : Path) :
    List Nat → Progress → Outcome
  | [], s => ⟨none, s⟩
  | index :: rest, s =>
    let s := s.asked (.follow capture index)
    match a.followReport capture index with
    | .error e => ⟨some e, s⟩
    | .ok report =>
      match followPackets report with
      | .error e => ⟨some e, s⟩
      | .ok packets =>
        match save o ⟨index, packets⟩ s with
        | ⟨none, after⟩ => followEach a o capture rest after
        | stopped => stopped

/-- A run by reports. -/
def byReports (a : Analyzer) (o : Output) (capture : Path) (s : Progress) : Outcome :=
  let s := s.asked (.conversations capture)
  match a.conversationReport capture with
  | .error e => ⟨some e, s⟩
  | .ok report =>
    followEach a o capture (List.range (Report.rowCount .conversations report)) s

/-- A run by the fields of a dissection. -/
def byFields (a : Analyzer) (o : Output) (capture : Path) (s : Progress) : Outcome :=
  let s := s.asked (.dissection capture)
  match a.udpEntries capture with
  | .error e => ⟨some e, s⟩
  | .ok entries =>
    match Dissection.group entries with
    | .error e => ⟨some e, s⟩
    | .ok conversations => saveAll o conversations s

/-- Extracts the packets of a capture into a directory. The statistics go
on from those of earlier runs. -/
def run (a : Analyzer) (mode : Mode) (capture directory : Path)
    (statistics : Statistics) (disk : Disk) : Outcome :=
  let s := Progress.start disk statistics
  match Output.ofCapture capture directory with
  | .error e => ⟨some e, s⟩
  | .ok o =>
    match mode with
    | .report => byReports a o capture s
    | .fields => byFields a o capture s

end Extraction
end CaptureSplit
