/-
CaptureSplit.Text.Utf8 — bytes and the characters they stand for.

`pieces` cuts any byte sequence into characters and ill-formed runs. An
ill-formed run is as long as it can be while still starting some
character (a maximal subpart), or one byte that starts none. Everything
else here reads off the pieces:

* `decode` wants characters only, and names the first fault;
* `decodeLossy` puts U+FFFD in the place of each ill-formed run;
* `encode` is the way back.

The scan keeps the bytes of the sequence it is in and looks at one byte
at a time, so it recurses on the input itself.
-/
namespace CaptureSplit

/-- Raw bytes: packet payloads, paths, arguments, program output. -/
abbrev Bytes := List UInt8

namespace Text.Utf8

/-! ## The shape of a sequence -/

/-- How long the sequence is that a byte opens, if it opens one. Bytes
that only continue, overlong leads and leads beyond U+10FFFF open none. -/
def width? (lead : UInt8) : Option Nat :=
  if lead < 0x80 then some 1
  else if 0xC2 ≤ lead && lead ≤ 0xDF then some 2
  else if 0xE0 ≤ lead && lead ≤ 0xEF then some 3
  else if 0xF0 ≤ lead && lead ≤ 0xF4 then some 4
  else none

/-- The least and the greatest byte that may follow a lead directly. The
narrowed ranges rule out overlong forms, surrogates and code points
beyond U+10FFFF. -/
def secondRange (lead : UInt8) : UInt8 × UInt8 :=
  if lead = 0xE0 then (0xA0, 0xBF)
  else if lead = 0xED then (0x80, 0x9F)
  else if lead = 0xF0 then (0x90, 0xBF)
  else if lead = 0xF4 then (0x80, 0x8F)
  else (0x80, 0xBF)

/-- Whether a byte continues the sequence begun by `held`. -/
def continues (held : Bytes) (b : UInt8) : Bool :=
  match held with
  | [lead] => (secondRange lead).1 ≤ b && b ≤ (secondRange lead).2
  | _ => 0x80 ≤ b && b ≤ 0xBF

/-- Whether `held` is a whole sequence. -/
def isWhole (held : Bytes) : Bool :=
  match held with
  | [] => false
  | lead :: _ => width? lead == some held.length

/-- The code point of a whole sequence: the payload bits, most
significant first. -/
def codePoint : Bytes → Nat
  | [a] => a.toNat
  | [a, b] => (a.toNat - 0xC0) * 64 + (b.toNat - 0x80)
  | [a, b, c] => ((a.toNat - 0xE0) * 64 + (b.toNat - 0x80)) * 64 + (c.toNat - 0x80)
  | [a, b, c, d] =>
    (((a.toNat - 0xF0) * 64 + (b.toNat - 0x80)) * 64 + (c.toNat - 0x80)) * 64
      + (d.toNat - 0x80)
  | _ => 0

/-! ## Pieces -/

/-- A part of a byte sequence. -/
inductive Piece where
  /-- A character, in its one well-formed encoding. -/
  | scalar (c : Char)
  /-- Bytes that belong to no character, whatever follows. -/
  | broken (bytes : Bytes)
  /-- The start of a character that the input ends within. -/
  | cut (bytes : Bytes)
  deriving DecidableEq

/-- Cuts the rest of the input into pieces, `held` being the bytes of
the sequence that has been begun and is not whole yet. -/
def piecesFrom (held : Bytes) : Bytes → List Piece
  | [] => if held.isEmpty then [] else [.cut held]
  | b :: rest =>
    if !held.isEmpty && continues held b then
      let longer := held ++ [b]
      if isWhole longer then .scalar (Char.ofNat (codePoint longer)) :: piecesFrom [] rest
      else piecesFrom longer rest
    else
      let after :=
        match width? b with
        | none => .broken [b] :: piecesFrom [] rest
        | some 1 => .scalar (Char.ofNat b.toNat) :: piecesFrom [] rest
        | some _ => piecesFrom [b] rest
      if held.isEmpty then after else .broken held :: after

/-- A byte sequence as characters and ill-formed runs. -/
def pieces (bytes : Bytes) : List Piece := piecesFrom [] bytes

/-! ## Characters to bytes -/

/-- The encoding of a text. -/
def encode (cs : List Char) : Bytes := cs.flatMap String.utf8EncodeChar

theorem encode_append (a b : List Char) : encode (a ++ b) = encode a ++ encode b := by
  simp [encode]

/-- The bytes of a string. -/
def ofString (s : String) : Bytes := encode s.toList

/-! ## Bytes to characters -/

/-- Why bytes are not a text. -/
inductive Fault where
  /-- `length` bytes from `start` on belong to no character. -/
  | invalid (length start : Nat)
  /-- The input ends within the character that begins at `start`. -/
  | incomplete (start : Nat)
  deriving DecidableEq

/-- The wording of a fault. -/
def Fault.message : Fault → String
  | .invalid length start => s!"invalid utf-8 sequence of {length} bytes from index {start}"
  | .incomplete start => s!"incomplete utf-8 byte sequence from index {start}"

/-- The characters of the pieces, the first of which starts at byte
`start`. -/
def charsFrom (start : Nat) : List Piece → Except Fault (List Char)
  | [] => .ok []
  | .scalar c :: rest =>
    match charsFrom (start + c.utf8Size) rest with
    | .ok cs => .ok (c :: cs)
    | .error e => .error e
  | .broken bytes :: _ => .error (.invalid bytes.length start)
  | .cut _ :: _ => .error (.incomplete start)

/-- The text that the bytes encode, or the first fault. -/
def decode (bytes : Bytes) : Except Fault (List Char) := charsFrom 0 (pieces bytes)

/-- `decode`, as a string. -/
def toString? (bytes : Bytes) : Option String :=
  match decode bytes with
  | .ok cs => some (String.ofList cs)
  | .error _ => none

/-- The character of a piece, U+FFFD for an ill-formed run. -/
def Piece.char : Piece → Char
  | .scalar c => c
  | .broken _ => '\uFFFD'
  | .cut _ => '\uFFFD'

/-- The text of the bytes with U+FFFD for each ill-formed run. -/
def decodeLossy (bytes : Bytes) : List Char := (pieces bytes).map Piece.char

/-- `decodeLossy`, as a string. -/
def toStringLossy (bytes : Bytes) : String := String.ofList (decodeLossy bytes)

end Text.Utf8
end CaptureSplit
