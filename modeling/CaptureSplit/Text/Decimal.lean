/-
CaptureSplit.Text.Decimal — whole numbers in decimal digits.

`digits?` reads one or more ASCII digits, leading zeros included;
`unsigned?` and `signed?` admit a sign in front and an upper bound, as the
fields of an analyzer's output are read. No other script's digits, no
blanks and no separators are taken.
-/
namespace CaptureSplit.Text.Decimal

/-- The value of an ASCII digit. -/
def digit? (c : Char) : Option Nat :=
  if '0' ≤ c ∧ c ≤ '9' then some (c.toNat - '0'.toNat) else none

/-- The value of further digits behind a number already read. -/
def digitsFrom? (value : Nat) : List Char → Option Nat
  | [] => some value
  | c :: rest =>
    match digit? c with
    | some d => digitsFrom? (10 * value + d) rest
    | none => none

/-- The value of one or more digits. -/
def digits? (cs : List Char) : Option Nat :=
  if cs.isEmpty then none else digitsFrom? 0 cs

/-- A number up to `bound`, with or without a plus sign. -/
def unsigned? (bound : Nat) (cs : List Char) : Option Nat :=
  let unsignedPart := match cs with
    | '+' :: rest => rest
    | _ => cs
  (digits? unsignedPart).filter (· ≤ bound)

/-- A number with an optional sign of either kind. -/
def signed? : List Char → Option Int
  | '-' :: rest => (digits? rest).map fun n => -(n : Int)
  | '+' :: rest => (digits? rest).map Int.ofNat
  | cs => (digits? cs).map Int.ofNat

end CaptureSplit.Text.Decimal
