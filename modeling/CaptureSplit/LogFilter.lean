/-
CaptureSplit.LogFilter — which directives of a log filter can be read.

A filter is a list of directives with commas between them. A directive
names a level, or a target and behind it, perhaps, a span with a field in
brackets and an equals sign with a level:

    info      net      net=debug      net[send{kind=2}]=5

What is logged is no concern of this library; that a directive cannot be
read is, because it is reported and then passed over. `warnings` gives the
reports for a filter.
-/
import CaptureSplit.LogFilter.Pattern
import CaptureSplit.Text.Decimal
import CaptureSplit.Text.Utf8

namespace CaptureSplit.LogFilter

/-- Why a directive cannot be read. -/
inductive Fault where
  | malformed
  /-- What stands behind the equals sign is no level. -/
  | badLevel
  /-- There is no looking for the value of a field. -/
  | badField (fault : Pattern.Fault)
  deriving DecidableEq

/-- The wording of a fault. -/
def Fault.message : Fault → String
  | .malformed => "invalid filter directive"
  | .badLevel =>
    "error parsing level filter: expected one of \"off\", \"error\", \"warn\", " ++
      "\"info\", \"debug\", \"trace\", or a number 0-5"
  | .badField fault => "invalid field filter: " ++ fault.message

/-! ## Levels -/

/-- The names of the levels, none of which is told apart by case. -/
def levelNames : List String := ["off", "error", "warn", "info", "debug", "trace"]

/-- Whether a text denotes a level, by its name or its number. -/
def isLevel (text : String) : Bool :=
  (Text.Decimal.unsigned? 5 text.toList).isSome || levelNames.contains text.toLower

/-! ## Directives -/

/-- What the reading of a directive is within. -/
inductive Context where
  | start
  /-- In a level or a target. -/
  | target
  /-- In the name of a span. -/
  | span
  /-- In a field of a span, which begins at the given byte. -/
  | field (position : Nat)
  /-- Behind the fields of a span. -/
  | fieldsEnd
  /-- Behind a span. -/
  | spanEnd
  /-- In the level, which begins at the given byte. -/
  | level (position : Nat)
  deriving DecidableEq

/-- Whether a directive can begin with a character, a bracket aside. -/
def opensTarget (c : Char) : Bool :=
  c == '-' || c == ':' || c == '_' || Text.isAlphanumeric c

/-- The text of a directive between two bytes. -/
def textBetween (start stop : Nat) (directive : String) : Option String :=
  Text.Utf8.toString? (((Text.Utf8.ofString directive).drop start).take (stop - start))

/-- The fault of a field, if it has one. Its value stands between the first
equals sign and the second. -/
def fieldFault? (field : String) : Option Fault :=
  match field.toList.splitOn '=' with
  | _ :: value :: _ => (Pattern.fault? value).map .badField
  | _ => none

/-- The context behind the field from `start` to `stop`. -/
def afterField (directive : String) (start stop : Nat) : Except Fault Context :=
  if start = stop then .error .malformed
  else
    match (textBetween start stop directive).bind fieldFault? with
    | some fault => .error fault
    | none => .ok .fieldsEnd

/-- One character on; the character stands at byte `position`. -/
def step (directive : String) (position : Nat) (context : Context) (c : Char) :
    Except Fault Context :=
  match context with
  | .start =>
    if c = '[' then .ok .span else if opensTarget c then .ok .target else .error .malformed
  | .target =>
    .ok (if c = '=' then .level (position + 1) else if c = '[' then .span else .target)
  | .span =>
    .ok (if c = ']' then .spanEnd else if c = '\x7b' then .field (position + 1) else .span)
  | .field start =>
    if c = '\x7d' then afterField directive start position else .ok (.field start)
  | .fieldsEnd => if c = ']' then .ok .spanEnd else .error .malformed
  | .spanEnd => if c = '=' then .ok (.level (position + 1)) else .error .malformed
  | .level start => .ok (.level start)

/-- The context that characters lead to, the first of which stands at byte
`position`. -/
def contextAfter (directive : String) (position : Nat) (context : Context) :
    List Char → Except Fault Context
  | [] => .ok context
  | c :: rest =>
    match step directive position context c with
    | .error fault => .error fault
    | .ok next => contextAfter directive (position + c.utf8Size) next rest

/-- The fault of a level, if it has one. Nothing is a level as well. -/
def levelFault? : Option String → Option Fault
  | some text => if text.isEmpty || isLevel text then none else some .badLevel
  | none => some .badLevel

/-- The fault of a directive, if it has one. White space around the
directive is passed over, yet bytes are counted from its front and taken
from the front of the whole. -/
def fault? (directive : String) : Option Fault :=
  match contextAfter directive 0 .start (Text.trim directive.toList) with
  | .error fault => some fault
  | .ok .target | .ok .spanEnd => none
  | .ok (.level start) =>
    levelFault? (textBetween start (Text.Utf8.ofString directive).length directive)
  | .ok _ => some .malformed

/-! ## Filters -/

/-- The directives of a filter. Commas in a row stand for one. -/
def directives (filter : String) : List String :=
  ((filter.toList.splitOn ',').filter fun d => !d.isEmpty).map String.ofList

/-- The report of a directive that cannot be read. -/
def warning (directive : String) (fault : Fault) : String :=
  "ignoring " ++ "`" ++ directive ++ "`: " ++ fault.message ++ "\n"

/-- The reports for a filter, in the order of its directives. -/
def warnings (filter : String) : String :=
  String.join ((directives filter).filterMap fun d => (fault? d).map (warning d))

end CaptureSplit.LogFilter
