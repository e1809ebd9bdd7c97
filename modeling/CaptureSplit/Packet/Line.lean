/-
CaptureSplit.Packet.Line — the two notations of a packet's bytes.

A row of a follow report holds groups of hex pairs between ASCII blanks
(`Packet.ofLine`). A dissected field holds either contiguous pairs or
single pairs between colons, with any white space around the whole
(`Packet.ofField`). A failure carries the text as it was read: the whole
row, or the field without its surrounding white space.
-/
import CaptureSplit.Failure

namespace CaptureSplit

/-- The payload of one datagram. -/
abbrev Packet := Bytes

namespace Packet

/-- The bytes of several groups of digits, one after the other; the first
group that is faulty decides. -/
def ofGroups (read : Bytes → Except Hex.Fault Bytes) :
    List (List Char) → Except Hex.Fault Packet
  | [] => .ok []
  | group :: rest =>
    match read (Text.Utf8.encode group) with
    | .error e => .error e
    | .ok bytes =>
      match ofGroups read rest with
      | .error e => .error e
      | .ok more => .ok (bytes ++ more)

/-- The packet of one row of a follow report. -/
def ofLine (line : String) : Except Failure Packet :=
  (ofGroups Hex.decode (Text.words line.toList)).mapError (.malformedHex line)

/-- The packets of rows, one each; the first faulty row decides. -/
def ofLines : List String → Except Failure (List Packet)
  | [] => .ok []
  | line :: rest =>
    match ofLine line with
    | .error e => .error e
    | .ok packet =>
      match ofLines rest with
      | .error e => .error e
      | .ok packets => .ok (packet :: packets)

/-- One byte between two colons: its length counts before its digits. -/
def pair (digits : Bytes) : Except Hex.Fault Bytes :=
  if digits.length = 2 then Hex.decode digits else .error .notAPair

/-- The packet of a dissected field. -/
def ofField (field : String) : Except Failure Packet :=
  let inner := Text.trim field.toList
  let packet :=
    if inner.contains ':' then ofGroups pair (inner.splitOn ':')
    else Hex.decode (Text.Utf8.encode inner)
  packet.mapError (.malformedHex (String.ofList inner))

end Packet
end CaptureSplit
