/-
CaptureSplit.LogFilter.Pattern.Expression — regular expressions.

An expression is alternatives of sequences of parts, and groups are parts.
`expressionFault?` says why no automaton can be built for an expression:
it is malformed, it is nested too deep, it asks for what the automaton has
no tables for, or, if that is all, it asks for the edge of a word among
the characters of all scripts.

An expression stands within braces, in a list with commas and behind an
equals sign, so it holds none of a closing brace, a comma, an equals sign:
a repetition with a count is never closed, nor is an escape with braces.
-/
import CaptureSplit.LogFilter.Pattern.Bracket
import CaptureSplit.Text.Alphabetic

namespace CaptureSplit.LogFilter.Pattern

/-- Why there is no automaton for a pattern. -/
inductive Fault where
  | malformed
  /-- The pattern asks for the edge of a word. -/
  | wordEdge
  deriving DecidableEq

/-- The wording of a fault. -/
def Fault.message : Fault → String
  | .malformed => "error building NFA"
  | .wordEdge =>
    "unsupported regex feature for DFAs: cannot build DFAs for regexes with " ++
      "Unicode word boundaries; switch to ASCII word boundaries, or " ++
      "heuristically enable Unicode word boundaries or use a different regex engine"

/-! ## Open groups -/

/-- A part of a sequence. -/
structure Part where
  depth : Nat
  /-- Flags are a part that is not to be repeated. -/
  isRepeatable : Bool
  deriving DecidableEq

/-- A group that is open. -/
structure Group where
  /-- The parts of the last alternative, the last one first. -/
  parts : List Part
  /-- The depths of the alternatives before it. -/
  alternatives : List Nat
  deriving DecidableEq

/-- A group with nothing in it. -/
def Group.empty : Group := ⟨[], []⟩

/-- The group with one more part. -/
def Group.add (g : Group) (p : Part) : Group := { g with parts := p :: g.parts }

/-- The depth of the last alternative. -/
def Group.lastDepth (g : Group) : Nat := nesting (g.parts.map Part.depth)

/-- The group with one more alternative. -/
def Group.alternate (g : Group) : Group := ⟨[], g.lastDepth :: g.alternatives⟩

/-- The depth of what is in a group. -/
def Group.depth (g : Group) : Nat := nesting (g.lastDepth :: g.alternatives)

/-- The group with its last part repeated. -/
def Group.repeatLast? (g : Group) : Option Group :=
  match g.parts with
  | [] => none
  | p :: parts =>
    if p.isRepeatable then some { g with parts := ⟨p.depth + 1, true⟩ :: parts } else none

/-! ## The state of the reading -/

/-- The state of the reading. -/
structure State where
  mode : Mode
  group : Group
  /-- The groups around it with the modes outside of it, the innermost
  first. -/
  outer : List (Group × Mode)
  /-- The names of groups. -/
  names : List (List Char)
  /-- Whether the edge of a word is asked for. -/
  hasWordEdge : Bool
  deriving DecidableEq

/-- The state at the front of an expression. -/
def State.initial : State := ⟨.initial, .empty, [], [], false⟩

/-- The state behind a part that can be repeated. -/
def State.add (s : State) (depth : Nat) : State :=
  { s with group := s.group.add ⟨depth, true⟩ }

/-- The state behind a part without parts. -/
def State.addPrimitive (s : State) (p : Primitive) : Option State :=
  if p.isPlain s.mode then
    let asksEdge := p = .wordEdge && s.mode.unicode
    some { s.add 0 with hasWordEdge := s.hasWordEdge || asksEdge }
  else none

/-! ## Groups -/

/-- The state in a group. -/
def State.openGroup (s : State) (m : Mode) : State :=
  { s with mode := m, group := .empty, outer := (s.group, s.mode) :: s.outer }

/-- The state behind a group. -/
def State.closeGroup? (s : State) : Option State :=
  match s.outer with
  | [] => none
  | (around, m) :: outer =>
    some { s with mode := m, group := around.add ⟨s.group.depth + 1, true⟩, outer := outer }

/-- Whether a name of a group can go on with a character. -/
def isNameChar (c : Char) : Bool :=
  c = '_' || c = '.' || c = '[' || c = ']' || Text.isAlphanumeric c

/-- Whether a text can be the name of a group. -/
def isName : List Char → Bool
  | [] => false
  | c :: rest => (c = '_' || Text.isAlphabetic c) && rest.all isNameChar

/-- Reads the name of a group. No two groups share one. -/
def State.readName (s : State) (cs : List Char) : Option (State × List Char) :=
  let name := cs.takeWhile (· ≠ '>')
  match cs.dropWhile (· ≠ '>') with
  | [] => none
  | _ :: rest =>
    if isName name && !s.names.contains name then
      some ({ s.openGroup s.mode with names := name :: s.names }, rest)
    else none

/-- Reads flags, which are those of a group or those of the rest of the
group around them. -/
def State.readFlags (s : State) (cs : List Char) : Option (State × List Char) :=
  match Pattern.readFlags [] cs with
  | none => none
  | some (flags, mark, rest) =>
    let m := s.mode.under flags
    if mark = ':' then some (s.openGroup m, rest)
    else if flags.isEmpty then none
    else some ({ s with mode := m, group := s.group.add ⟨0, false⟩ }, rest)

/-- Reads what stands behind an opening parenthesis. -/
def State.readOpening (s : State) (cs : List Char) : Option (State × List Char) :=
  match s.mode.skip cs with
  | '?' :: 'P' :: '<' :: rest => s.readName rest
  | '?' :: '<' :: rest => s.readName rest
  | '?' :: rest => s.readFlags rest
  | rest => some (s.openGroup s.mode, rest)

/-! ## Expressions -/

/-- Reads a part or a mark that begins with the given character. -/
def State.read (s : State) (c : Char) (rest : List Char) : Option (State × List Char) :=
  if c = '(' then s.readOpening rest
  else if c = ')' then s.closeGroup?.map (·, rest)
  else if c = '|' then some ({ s with group := s.group.alternate }, rest)
  else if c = '[' then (readBracket s.mode rest).map fun (depth, rest) => (s.add depth, rest)
  else if c = '?' || c = '*' || c = '+' then
    let behind := match rest with
      | '?' :: behind => behind
      | behind => behind
    s.group.repeatLast?.map fun g => ({ s with group := g }, behind)
  else if c = '\x7b' then none
  else if c = '\\' then
    (readEscape s.mode rest).bind fun (p, rest) => (s.addPrimitive p).map (·, rest)
  else if c = '.' then if s.mode.unicode then some (s.add 0, rest) else none
  else if c = '^' || c = '$' then some (s.add 0, rest)
  else (s.addPrimitive (.literal ⟨c, false⟩)).map (·, rest)

/-- Reads an expression to its end. Every round takes a character at
least. -/
def State.readAll (s : State) : Nat → List Char → Option State
  | 0, _ => none
  | fuel + 1, cs =>
    match s.mode.skip cs with
    | [] => some s
    | c :: rest =>
      match s.read c rest with
      | some (next, rest) => next.readAll fuel rest
      | none => none

/-- How deep an expression may be. -/
def depthLimit : Nat := 250

/-- The fault of a regular expression, if it has one. -/
def expressionFault? (pattern : List Char) : Option Fault :=
  match State.initial.readAll (pattern.length + 1) pattern with
  | none => some .malformed
  | some s =>
    if !s.outer.isEmpty || depthLimit < s.group.depth then some .malformed
    else if s.hasWordEdge then some .wordEdge
    else none

end CaptureSplit.LogFilter.Pattern
