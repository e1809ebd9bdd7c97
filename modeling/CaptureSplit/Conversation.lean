/-
CaptureSplit.Conversation — packets gathered by stream index.

The gathered conversations are a list in strictly ascending order of
their indices, none of them empty; `Buffers.add` finds the place of an
index and appends the packet there.
-/
import CaptureSplit.Packet.Line

namespace CaptureSplit

/-- The packets of one stream, in the order of the capture. -/
structure Conversation where
  index : Nat
  packets : List Packet
  deriving DecidableEq

/-- The conversations gathered so far, ascending by index. -/
abbrev Buffers := List Conversation

namespace Buffers

/-- Nothing gathered yet. -/
def empty : Buffers := []

/-- Appends a packet to the conversation of its index, which begins with
it if there was none. -/
def add (index : Nat) (packet : Packet) : Buffers → Buffers
  | [] => [⟨index, [packet]⟩]
  | c :: rest =>
    if index < c.index then ⟨index, [packet]⟩ :: c :: rest
    else if index = c.index then ⟨c.index, c.packets ++ [packet]⟩ :: rest
    else c :: add index packet rest

end Buffers
end CaptureSplit
