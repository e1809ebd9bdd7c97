/-
CaptureSplit.LogFilter.Pattern.Mode — what the flags of a pattern change.

Flags stand as letters behind an opening parenthesis and a question mark;
those behind a hyphen are taken back. Most of them change only what is
matched. Three change what a pattern may be: `i`, under which letters
stand for both cases, `u`, which lets the pattern speak of characters and
not of bytes, and `x`, under which blanks and notes are passed over.
-/
import CaptureSplit.Text.Blank

namespace CaptureSplit.LogFilter.Pattern

/-- What flags have set. -/
structure Mode where
  /-- Letters stand for both cases. -/
  caseless : Bool
  /-- The pattern speaks of characters, not of bytes. -/
  unicode : Bool
  /-- Blanks and notes are passed over. -/
  verbose : Bool
  deriving DecidableEq

/-- The mode at the front of a pattern. -/
def Mode.initial : Mode := ⟨false, true, false⟩

/-! ## Flags -/

/-- The flags there are. -/
def flagLetters : List Char := ['i', 'm', 's', 'U', 'u', 'R', 'x']

/-- Reads flags up to the colon or parenthesis behind them, which comes out
too; those before are held from their end. No flag stands twice, and
something stands behind a hyphen. -/
def readFlags (reversed : List Char) : List Char → Option (List Char × Char × List Char)
  | [] => none
  | c :: rest =>
    if c = ':' || c = ')' then
      if reversed.head? = some '-' then none else some (reversed.reverse, c, rest)
    else if (c = '-' || flagLetters.contains c) && !reversed.contains c then
      readFlags (c :: reversed) rest
    else none

/-- What flags say about one of them, if anything. -/
def setting? (flag : Char) (flags : List Char) : Option Bool :=
  if flags.contains flag then some !(flags.takeWhile (· ≠ flag)).contains '-' else none

/-- The mode under flags. -/
def Mode.under (m : Mode) (flags : List Char) : Mode :=
  ⟨(setting? 'i' flags).getD m.caseless, (setting? 'u' flags).getD m.unicode,
    (setting? 'x' flags).getD m.verbose⟩

/-! ## Blanks and notes -/

/-- What stands behind blanks and notes. A note lasts to the end of the
line. -/
def behindNotes (inNote : Bool) : List Char → List Char
  | [] => []
  | c :: rest =>
    if inNote then behindNotes (c ≠ '\n') rest
    else if c = '#' then behindNotes true rest
    else if Text.isWhiteSpace c then behindNotes false rest
    else c :: rest

/-- What stands behind what a mode passes over. -/
def Mode.skip (m : Mode) (cs : List Char) : List Char :=
  if m.verbose then behindNotes false cs else cs

/-- The first character that is no blank and not the mark of a first note.
What a note says is not passed over. -/
def firstBehindMark? (metMark : Bool) : List Char → Option Char
  | [] => none
  | c :: rest =>
    if Text.isWhiteSpace c then firstBehindMark? metMark rest
    else if c = '#' && !metMark then firstBehindMark? true rest
    else some c

/-- The character that decides whether a hyphen makes a range. -/
def Mode.ahead? (m : Mode) (cs : List Char) : Option Char :=
  if m.verbose then (firstBehindMark? false cs).orElse (fun _ => cs.head?) else cs.head?

/-! ## Nesting -/

/-- How deep the parts of a sequence make it. One part is no sequence. -/
def nesting : List Nat → Nat
  | [] => 0
  | [depth] => depth
  | depths => 1 + depths.foldl Nat.max 0

end CaptureSplit.LogFilter.Pattern
