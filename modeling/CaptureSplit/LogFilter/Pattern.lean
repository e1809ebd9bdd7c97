/-
CaptureSplit.LogFilter.Pattern — which values of a field can be looked for.

A value that reads as a number is looked for as a number. Any other is a
regular expression, for which an automaton is built. What the automaton
accepts is no concern of this library; that there is none, is. `fault?`
gives the reason.
-/
import CaptureSplit.LogFilter.Pattern.Expression

namespace CaptureSplit.LogFilter.Pattern

/-! ## Numbers -/

/-- Whether a text is the exponent of a number, from its sign on. -/
def isExponent (cs : List Char) : Bool :=
  let digits := match cs with
    | '+' :: rest | '-' :: rest => rest
    | _ => cs
  !digits.isEmpty && digits.all Char.isDigit

/-- Whether a text is a number without a sign, be it beyond all bounds. -/
def isUnsigned (cs : List Char) : Bool :=
  let fromPoint := cs.dropWhile Char.isDigit
  let fraction := match fromPoint with
    | '.' :: rest => rest
    | _ => []
  let exponent := match fromPoint with
    | '.' :: rest => rest.dropWhile Char.isDigit
    | _ => fromPoint
  ["inf", "infinity", "nan"].contains (String.ofList (cs.map Char.toLower)) ||
    (!(cs.takeWhile Char.isDigit ++ fraction.takeWhile Char.isDigit).isEmpty &&
      match exponent with
      | [] => true
      | mark :: rest => (mark = 'e' || mark = 'E') && isExponent rest)

/-- The fault of a value, if it has one. A number without a sign or with a
minus sign would do as an expression too; one with a plus sign would not. -/
def fault? (value : List Char) : Option Fault :=
  match value with
  | '+' :: rest => if isUnsigned rest then none else expressionFault? value
  | _ => expressionFault? value

end CaptureSplit.LogFilter.Pattern
