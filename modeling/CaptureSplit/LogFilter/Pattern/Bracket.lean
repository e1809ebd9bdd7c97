/-
CaptureSplit.LogFilter.Pattern.Bracket — classes in brackets.

A class lists characters, ranges, named classes and classes in brackets.
Two hyphens, ampersands or tildes set what is before them against what is
behind them. `readBracket` reads a class up to its closing bracket and
gives its depth: a class, an operator and a list of two items or more each
add one to what is within.
-/
import CaptureSplit.LogFilter.Pattern.Primitive

namespace CaptureSplit.LogFilter.Pattern

/-- A class that is open. -/
structure Bracket where
  /-- The depths of its items behind the last operator. -/
  items : List Nat
  /-- The depth of what is before that operator. -/
  left? : Option Nat
  deriving DecidableEq

/-- The depth of what is within a class. -/
def Bracket.depth (b : Bracket) : Nat :=
  match b.left? with
  | none => nesting b.items
  | some left => 1 + Nat.max left (nesting b.items)

/-- The class with one more item. -/
def Bracket.add (b : Bracket) (depth : Nat) : Bracket := { b with items := depth :: b.items }

/-- The class behind an operator. -/
def Bracket.operate (b : Bracket) : Bracket := ⟨[], some b.depth⟩

/-! ## Opening -/

/-- Reads hyphens at the front of a class, which stand for themselves, and
gives their number. -/
def readHyphens (m : Mode) : Nat → Nat → List Char → Nat × List Char
  | fuel + 1, count, '-' :: rest => readHyphens m fuel (count + 1) (m.skip rest)
  | _, count, cs => (count, cs)

/-- Reads the front of a class behind its opening bracket. If the first item
is a closing bracket, it stands for itself. -/
def readFront (m : Mode) (cs : List Char) : Option (Bracket × List Char) :=
  let (isNegated, inside) := match m.skip cs with
    | '^' :: rest => (true, m.skip rest)
    | rest => (false, rest)
  let (hyphens, behind) := readHyphens m inside.length 0 inside
  let (items, rest) := match hyphens, behind with
    | 0, ']' :: rest => (1, m.skip rest)
    | _, rest => (hyphens, rest)
  let takesItems := items = 0 || Literal.isItem m ⟨'-', false⟩
  if takesItems && (m.unicode || !isNegated) then some (⟨List.replicate items 0, none⟩, rest)
  else none

/-! ## Items -/

/-- The classes that have a name in brackets of their own. -/
def classNames : List String :=
  ["alnum", "alpha", "ascii", "blank", "cntrl", "digit", "graph", "lower", "print", "punct",
    "space", "upper", "word", "xdigit"]

/-- Reads a class by its name behind an opening bracket, and whether it is
negated. -/
def readNamed? : List Char → Option (Bool × List Char)
  | ':' :: text =>
    let (isNegated, body) := match text with
      | '^' :: body => (true, body)
      | body => (false, body)
    match body.dropWhile (· ≠ ':') with
    | ':' :: ']' :: rest =>
      if classNames.contains (String.ofList (body.takeWhile (· ≠ ':'))) then
        some (isNegated, rest)
      else none
    | _ => none
  | _ => none

/-- Whether a class can be taken by its name. -/
def allowsClassName (m : Mode) (isNegated : Bool) : Bool :=
  if m.unicode then !m.caseless else !isNegated

/-- Reads a character or an escape. -/
def readPrimitive (m : Mode) : List Char → Option (Primitive × List Char)
  | [] => none
  | '\\' :: rest => readEscape m rest
  | c :: rest => some (.literal ⟨c, false⟩, rest)

/-- What is left behind a part, if that can stand in brackets. -/
def behindItem (m : Mode) (p : Primitive) (rest : List Char) : Option (List Char) :=
  if p.isItem m then some rest else none

/-- What is left behind a range, if there is one between two parts. -/
def behindRange (m : Mode) (low : Primitive) : Option (Primitive × List Char) →
    Option (List Char)
  | some (.literal high, rest) =>
    match low with
    | .literal low =>
      if low.isItem m && high.isItem m && low.char ≤ high.char then some rest else none
    | _ => none
  | _ => none

/-- What is left behind a character, an escape or a range. A hyphen makes a
range unless a closing bracket or a hyphen is ahead. -/
def behindFirstItem (m : Mode) (cs : List Char) : Option (List Char) :=
  match readPrimitive m cs with
  | none => none
  | some (low, rest) =>
    match m.skip rest with
    | '-' :: behind =>
      if m.ahead? behind = some ']' || m.ahead? behind = some '-' then
        behindItem m low ('-' :: behind)
      else behindRange m low (readPrimitive m (m.skip behind))
    | behind => behindItem m low behind

/-! ## Classes -/

/-- Reads classes up to the end of the outermost, whose depth comes out. Every
round takes a character at least. -/
def readItems (m : Mode) : Nat → Bracket → List Bracket → List Char →
    Option (Nat × List Char)
  | 0, _, _, _ => none
  | fuel + 1, b, outer, cs =>
    match m.skip cs with
    | [] => none
    | ']' :: rest =>
      match outer with
      | [] => some (b.depth + 1, rest)
      | around :: outer => readItems m fuel (around.add (b.depth + 1)) outer rest
    | '[' :: rest =>
      match readNamed? rest with
      | some (isNegated, rest) =>
        if allowsClassName m isNegated then readItems m fuel (b.add 0) outer rest else none
      | none =>
        match readFront m rest with
        | some (inner, rest) => readItems m fuel inner (b :: outer) rest
        | none => none
    | '&' :: '&' :: rest => readItems m fuel b.operate outer rest
    | '-' :: '-' :: rest => readItems m fuel b.operate outer rest
    | '~' :: '~' :: rest => readItems m fuel b.operate outer rest
    | c :: rest =>
      match behindFirstItem m (c :: rest) with
      | some rest => readItems m fuel (b.add 0) outer rest
      | none => none

/-- Reads a class behind its opening bracket, and gives its depth. -/
def readBracket (m : Mode) (cs : List Char) : Option (Nat × List Char) :=
  match readFront m cs with
  | some (b, rest) => readItems m (cs.length + 1) b [] rest
  | none => none

end CaptureSplit.LogFilter.Pattern
