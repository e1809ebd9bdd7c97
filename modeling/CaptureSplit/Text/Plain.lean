/-
CaptureSplit.Text.Plain — marked text, with its marks and without.

A text for people has marked stretches, which control sequences of its own
set off where it is `colored`. `plain` shows it without marks, without the
control sequences that bare and marked stretches may hold (they can quote
what somebody typed), and without control characters other than blanks.

A control sequence begins with an escape character and lasts, by its kind,
for one more character, up to a final letter, or up to a terminator. A
blank interrupts the short kinds and is shown; a mark, where a new
sequence would begin, ends all kinds. What has been interrupted is over in
a text that is shown at once (`plain`). In a stream (`plainStream`) it
goes on at the next control character, unless a character beyond ASCII
has been shown in between.
-/
import CaptureSplit.Text.Blank

namespace CaptureSplit.Text

/-! ## Control sequences -/

/-- The control sequence that a character stands in. -/
inductive Sequence where
  | none
  /-- Behind an escape character. -/
  | escape
  /-- Behind an escape character and intermediate characters. -/
  | intermediate
  /-- In the parameters of a control sequence proper. -/
  | parameters
  /-- In a string that a bell ends. -/
  | command
  /-- At the start of a device control string. -/
  | device
  /-- In the parameters of a device control string. -/
  | deviceParameters
  /-- Behind an intermediate character of a device control string. -/
  | deviceIntermediate
  /-- In a string that a terminator ends. -/
  | string
  deriving DecidableEq

/-- The sequence that a character begins behind an escape character. -/
def Sequence.begun (n : Nat) : Sequence :=
  if n < 0x30 then .intermediate
  else if n = 0x50 then .device
  else if n = 0x5B then .parameters
  else if n = 0x5D then .command
  else if n = 0x58 || n = 0x5E || n = 0x5F then .string
  else .none

/-- Whether a character is, or has among its bytes, the terminator of a
string. -/
def terminates (c : Char) : Bool := (String.utf8EncodeChar c).contains 0x9C

/-- The sequence behind a visible ASCII character of a device control
string. -/
def Sequence.afterDevice (s : Sequence) (n : Nat) : Sequence :=
  if n < 0x30 then .deviceIntermediate
  else if s = .deviceIntermediate || n = 0x3A || 0x40 ≤ n then .string
  else if n < 0x3C || s = .device then .deviceParameters
  else .string

/-- The sequence behind a character that is not shown. -/
def Sequence.after (s : Sequence) (c : Char) : Sequence :=
  let n := c.toNat
  if n = 0x1B then .escape
  else if n = 0x18 || n = 0x1A then .none
  else
    let isVisible := 0x20 ≤ n && n < 0x7F
    match s with
    | .none => .none
    | .escape => if isVisible then .begun n else .escape
    | .intermediate => if 0x30 ≤ n && isVisible then .none else .intermediate
    | .parameters => if 0x40 ≤ n && isVisible then .none else .parameters
    | .command => if n = 0x07 then .none else .command
    | .string => if terminates c then .none else .string
    | inDevice => if isVisible then inDevice.afterDevice n else inDevice

/-- Whether a character is shown, which interrupts a short sequence that is
open. -/
def Sequence.shows (s : Sequence) (c : Char) : Bool :=
  match s with
  | .none => isAsciiBlank c || (0x20 ≤ c.toNat && c.toNat ≠ 0x7F)
  | .escape | .intermediate | .parameters => isAsciiBlank c && c ≠ ' '
  | _ => false

/-! ## Marked text -/

/-- A stretch of text. -/
inductive Span where
  | bare (text : String)
  | marked (text : String)
  /-- A marked stretch that stands above others. -/
  | heading (text : String)
  deriving DecidableEq

/-- The characters between two marks, with nothing in the place of a mark. -/
def betweenMarks (text : String) : List (Option Char) :=
  none :: text.toList.map some ++ [none]

/-- The characters of a stretch, with nothing in the place of a mark. -/
def Span.characters : Span → List (Option Char)
  | .bare text => text.toList.map some
  | .marked text | .heading text => betweenMarks text

/-- The shown characters of a text, the sequence `s` being open. -/
def shownFrom (s : Sequence) : List (Option Char) → List Char
  | [] => []
  | none :: rest => shownFrom .none rest
  | some c :: rest =>
    if s.shows c then c :: shownFrom .none rest else shownFrom (s.after c) rest

/-- A text without marks, control sequences and control characters. -/
def plain (spans : List Span) : String :=
  String.ofList (shownFrom .none (spans.flatMap Span.characters))

/-! ## Streams -/

/-- The sequence that goes on behind a shown character. -/
def Sequence.behindShown (s : Sequence) (c : Char) : Sequence :=
  if c.toNat < 0x80 then s else .none

/-- The shown characters of a stream. The sequence `s` is open, or is
interrupted while characters are shown. -/
def streamedFrom (s : Sequence) (isInterrupted : Bool) : List (Option Char) → List Char
  | [] => []
  | none :: rest => streamedFrom .none false rest
  | some c :: rest =>
    if (if isInterrupted then Sequence.none else s).shows c then
      c :: streamedFrom (s.behindShown c) true rest
    else streamedFrom (s.after c) false rest

/-- A stream without marks, control sequences and control characters. -/
def plainStream (spans : List Span) : String :=
  String.ofList (streamedFrom .none false (spans.flatMap Span.characters))

/-! ## Color -/

/-- A mark: the control sequence that sets the rendition of this number. -/
def mark (rendition : Nat) : String := "\x1b[" ++ toString rendition ++ "m"

/-- The rendition of what is not marked. -/
def usual : Nat := 0

/-- A stretch with its marks: bold, and underlined as well if it is a
heading. -/
def Span.colored : Span → String
  | .bare text => text
  | .marked text => mark 1 ++ text ++ mark usual
  | .heading text => mark 1 ++ mark 4 ++ text ++ mark usual

/-- A text with its marks and with all that its stretches hold. -/
def colored (spans : List Span) : String := String.join (spans.map Span.colored)

end CaptureSplit.Text
