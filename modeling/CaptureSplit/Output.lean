/-
CaptureSplit.Output — one file for each packet.

The files of a capture stand in one directory, under names made of the
capture's own name and two numbers. `Output.write` writes the packets of
a conversation in order and stops at the first file that cannot be
created; the files before it stay.
-/
import CaptureSplit.Conversation
import CaptureSplit.Disk

namespace CaptureSplit

/-- The name of a packet's file: the capture's name, the number of the
conversation and the number of the packet within it. -/
def packetFileName (captureName : String) (conversation packet : Nat) : String :=
  captureName ++ "-conv-" ++ toString conversation ++ "-packet-" ++ toString packet ++ ".dat"

/-- Where the packets of a capture go. -/
structure Output where
  directory : Path
  captureName : String
  deriving DecidableEq

namespace Output

/-- The output of a capture. The capture's name is the final name of its
path, as text. -/
def ofCapture (capture directory : Path) : Except Failure Output :=
  match capture.fileName? with
  | some name => .ok ⟨directory, Text.Utf8.toStringLossy name⟩
  | none => .error (.noCaptureName capture)

/-- The path of a packet's file. -/
def packetPath (o : Output) (conversation packet : Nat) : Path :=
  o.directory.join (Text.Utf8.ofString (packetFileName o.captureName conversation packet))

/-- Writes packets from number `number` on, `written` bytes having been
written before. -/
def writeFrom (o : Output) (index number written : Nat) :
    List Packet → Disk → Except Failure Nat × Disk
  | [], d => (.ok written, d)
  | packet :: rest, d =>
    match d.create (o.packetPath index number) packet with
    | .error cause => (.error (.notWritten (o.packetPath index number) cause), d)
    | .ok after => writeFrom o index (number + 1) (written + packet.length) rest after

/-- Writes a conversation: the number of bytes written or the failure, and
the disk as it is left. -/
def write (o : Output) (c : Conversation) (d : Disk) : Except Failure Nat × Disk :=
  o.writeFrom c.index 0 0 c.packets d

end Output
end CaptureSplit
