/-
CaptureSplit.Text.Quoted — texts shown between quotation marks.

A quoted text stands on one line and in visible characters only: the
usual controls, the backslash and the quotation mark itself get a
backslash, every other unprintable character becomes its code point in
braces. The other kind of quotation mark stands as it is. A path is shown
alike, with each byte that belongs to no character as two hex digits.
-/
import CaptureSplit.Text.Unprintable
import CaptureSplit.Text.Utf8

namespace CaptureSplit.Text.Quoted

/-- A character as it stands between two marks. -/
def escape (mark c : Char) : List Char :=
  if c = '\x00' then ['\\', '0']
  else if c = '\t' then ['\\', 't']
  else if c = '\n' then ['\\', 'n']
  else if c = '\r' then ['\\', 'r']
  else if c = '\\' then ['\\', '\\']
  else if c = mark then ['\\', mark]
  else if isUnprintable c then
    ['\\', 'u', '\x7b'] ++ Nat.toDigits 16 c.toNat ++ ['\x7d']
  else [c]

/-- A byte that belongs to no character: two upper-case hex digits. -/
def escapeByte (b : UInt8) : List Char :=
  let digit (n : Nat) : Char := Char.ofNat (if n < 10 then 0x30 + n else 0x37 + n)
  ['\\', 'x', digit (b.toNat / 16), digit (b.toNat % 16)]

/-- A string between double quotation marks. -/
def string (s : String) : String :=
  String.ofList ('"' :: s.toList.flatMap (escape '"') ++ ['"'])

/-- A character between single quotation marks. -/
def char (c : Char) : String :=
  String.ofList ('\'' :: escape '\'' c ++ ['\''])

/-- A piece of a byte sequence between double quotation marks. -/
def piece : Utf8.Piece → List Char
  | .scalar c => escape '"' c
  | .broken bytes => bytes.flatMap escapeByte
  | .cut bytes => bytes.flatMap escapeByte

/-- Bytes, most of them text, between double quotation marks. -/
def bytes (b : Bytes) : String :=
  String.ofList ('"' :: (Utf8.pieces b).flatMap piece ++ ['"'])

end CaptureSplit.Text.Quoted
