/-
CaptureSplit.LogFilter.Pattern.Primitive — the smallest parts of a pattern.

A backslash and what is behind it denote a character, a class of
characters, or a place. `readEscape` reads it; `Primitive.isPlain` and
`Primitive.isItem` say which parts an automaton can be built for, outside
of brackets and in them. The automaton has no tables of letters and
scripts: it knows neither their classes nor their cases, and matches
characters, never parts of one.
-/
import CaptureSplit.LogFilter.Pattern.Mode
import CaptureSplit.Packet.Hex

namespace CaptureSplit.LogFilter.Pattern

/-- A character that stands for itself. -/
structure Literal where
  char : Char
  /-- Whether it is given by two hex digits, and so may mean a byte. -/
  isByte : Bool
  deriving DecidableEq

/-- The smallest parts of a pattern. -/
inductive Primitive where
  | literal (l : Literal)
  /-- A class of digits, blanks or word characters, or of all others. -/
  | named (isNegated : Bool)
  /-- A front or an end. -/
  | place
  | wordEdge
  deriving DecidableEq

/-! ## Escapes -/

/-- The value of a hex digit. -/
def hexDigit? (c : Char) : Option Nat :=
  if c.toNat < 0x80 then (Hex.digit? (UInt8.ofNat c.toNat)).map (·.toNat) else none

/-- Reads hex digits, those before them having a value. -/
def readHex (m : Mode) : Nat → Nat → List Char → Option (Nat × List Char)
  | 0, value, cs => some (value, cs)
  | _ + 1, _, [] => none
  | digits + 1, value, c :: rest =>
    match hexDigit? c with
    | some d => readHex m digits (16 * value + d) (m.skip rest)
    | none => none

/-- The number of hex digits that a letter behind a backslash announces. -/
def hexWidth? : Char → Option Nat
  | 'x' => some 2
  | 'u' => some 4
  | 'U' => some 8
  | _ => none

/-- Reads the hex digits of a character. -/
def readHexLiteral (m : Mode) (digits : Nat) (cs : List Char) :
    Option (Primitive × List Char) :=
  match readHex m digits 0 (m.skip cs) with
  | some (value, rest) =>
    if value.isValidChar then some (.literal ⟨Char.ofNat value, digits = 2⟩, rest) else none
  | none => none

/-- Whether a character behind a backslash stands for itself. -/
def isEscapable (c : Char) : Bool :=
  c.toNat < 0x80 && !c.isAlphanum && c ≠ '<' && c ≠ '>'

/-- What a letter or an angle bracket denotes behind a backslash, hex digits
aside. Nothing is known of classes by the names of their properties. -/
def letterEscape? : Char → Option Primitive
  | 'a' => some (.literal ⟨'\x07', false⟩)
  | 't' => some (.literal ⟨'\t', false⟩)
  | 'n' => some (.literal ⟨'\n', false⟩)
  | 'v' => some (.literal ⟨'\x0b', false⟩)
  | 'f' => some (.literal ⟨'\x0c', false⟩)
  | 'r' => some (.literal ⟨'\r', false⟩)
  | 'd' | 's' | 'w' => some (.named false)
  | 'D' | 'S' | 'W' => some (.named true)
  | 'A' | 'z' => some .place
  | 'b' | 'B' | '<' | '>' => some .wordEdge
  | _ => none

/-- Reads what stands behind a backslash. -/
def readEscape (m : Mode) : List Char → Option (Primitive × List Char)
  | [] => none
  | c :: rest =>
    match hexWidth? c with
    | some digits => readHexLiteral m digits rest
    | none =>
      if isEscapable c then some (.literal ⟨c, false⟩, rest)
      else (letterEscape? c).map (·, rest)

/-! ## Parts that can be built -/

/-- Whether a character can stand for itself outside of brackets. -/
def Literal.isPlain (m : Mode) (l : Literal) : Bool :=
  if m.unicode then !m.caseless else !l.isByte || l.char.toNat < 0x80

/-- Whether a character can stand for itself in brackets. -/
def Literal.isItem (m : Mode) (l : Literal) : Bool :=
  if m.unicode then !m.caseless else l.char.toNat < 0x80

/-- Whether a class of bytes can be named. What is left of all bytes without
some ASCII characters are no characters. -/
def allowsNamed (m : Mode) (isNegated : Bool) : Bool := !m.unicode && !isNegated

/-- Whether a part can stand outside of brackets. -/
def Primitive.isPlain (m : Mode) : Primitive → Bool
  | .literal l => l.isPlain m
  | .named isNegated => allowsNamed m isNegated
  | .place | .wordEdge => true

/-- Whether a part can stand in brackets. -/
def Primitive.isItem (m : Mode) : Primitive → Bool
  | .literal l => l.isItem m
  | .named isNegated => allowsNamed m isNegated
  | .place | .wordEdge => false

end CaptureSplit.LogFilter.Pattern
