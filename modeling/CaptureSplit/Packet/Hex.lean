/-
CaptureSplit.Packet.Hex — bytes written as pairs of hex digits.

`decode` reads digits of either case, high nibble first. What it refuses
it refuses at the first fault: an odd number of bytes counts before any
byte is looked at, then the first byte that is no digit is named with its
position. `encode` writes lower-case digits.
-/
import CaptureSplit.Text.Quoted

namespace CaptureSplit.Hex

/-- Why a text is not a sequence of hex pairs. -/
inductive Fault where
  | oddLength
  /-- A piece between two colons is not two bytes long. -/
  | notAPair
  /-- The byte at this position of the piece is no hex digit. -/
  | notADigit (byte : UInt8) (position : Nat)
  deriving DecidableEq

/-- The wording of a fault. The byte is shown as the character of the
same number. -/
def Fault.message : Fault → String
  | .oddLength => "Odd number of digits"
  | .notAPair => "Invalid string length"
  | .notADigit byte position =>
    "Invalid character " ++ Text.Quoted.char (Char.ofNat byte.toNat) ++
      s!" at position {position}"

/-- The value of a hex digit of either case. -/
def digit? (b : UInt8) : Option UInt8 :=
  if 0x30 ≤ b && b ≤ 0x39 then some (b - 0x30)
  else if 0x61 ≤ b && b ≤ 0x66 then some (b - 0x57)
  else if 0x41 ≤ b && b ≤ 0x46 then some (b - 0x37)
  else none

/-- Reads pairs of digits, the first of which stands at `position`. -/
def pairsFrom (position : Nat) : Bytes → Except Fault Bytes
  | high :: low :: rest =>
    match digit? high, digit? low with
    | none, _ => .error (.notADigit high position)
    | some _, none => .error (.notADigit low (position + 1))
    | some h, some l =>
      match pairsFrom (position + 2) rest with
      | .ok bytes => .ok ((16 * h + l) :: bytes)
      | .error e => .error e
  | _ => .ok []

/-- The bytes that an even number of hex digits stands for. -/
def decode (digits : Bytes) : Except Fault Bytes :=
  if digits.length % 2 = 1 then .error .oddLength else pairsFrom 0 digits

/-- The lower-case digit of a value below sixteen. -/
def digit (n : Nat) : Char := Char.ofNat (if n < 10 then 0x30 + n else 0x57 + n)

/-- Two lower-case digits for each byte, high nibble first. -/
def encode (bytes : Bytes) : List Char :=
  bytes.flatMap fun b => [digit (b.toNat / 16), digit (b.toNat % 16)]

end CaptureSplit.Hex
