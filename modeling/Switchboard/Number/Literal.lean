import Switchboard.Number.Double
import Switchboard.Text.Blank

/-!
# Number literals

Readers for whole texts: an integer is an optional sign and one or more ASCII
digits; a float is an optional sign followed by a name of infinity or NaN in
any letter case, or by digits with an optional point and an optional exponent,
with a digit on one side of the point.
-/

namespace Switchboard.Literal

def digit? (c : Char) : Option Nat :=
  if '0' ≤ c ∧ c ≤ '9' then some (c.toNat - '0'.toNat) else none

/-- The value of a hexadecimal digit, in either letter case. -/
def hexDigit? (c : Char) : Option Nat :=
  if 'a' ≤ c ∧ c ≤ 'f' then some (c.toNat - 'a'.toNat + 10)
  else if 'A' ≤ c ∧ c ≤ 'F' then some (c.toNat - 'A'.toNat + 10)
  else digit? c

/-- The value of a run of decimal digits, or `none` at any other character. -/
def digits? : List Char → Nat → Option Nat
  | [], n => some n
  | c :: cs, n => (digit? c).bind fun d => digits? cs (10 * n + d)

/-- One or more digits. -/
def nat? (cs : List Char) : Option Nat :=
  if cs.isEmpty then none else digits? cs 0

/-- Digits after an optional plus sign. -/
def unsigned? : List Char → Option Nat
  | '+' :: cs => nat? cs
  | cs => nat? cs

/-- Digits after an optional sign. -/
def integer? : List Char → Option Int
  | '-' :: cs => (nat? cs).map fun n => -(n : Int)
  | cs => (unsigned? cs).map fun n => (n : Int)

def isDigit (c : Char) : Bool := (digit? c).isSome

/-- The exponent part of a float: nothing, or `e` and an integer. -/
def exponent? : List Char → Option Int
  | [] => some 0
  | c :: cs => if c = 'e' ∨ c = 'E' then integer? cs else none

/-- Digits, an optional point with more digits, and an optional exponent. -/
def decimal? (cs : List Char) : Option (Nat × Int) :=
  let whole := cs.takeWhile isDigit
  let rest := cs.dropWhile isDigit
  let (fraction, rest) :=
    match rest with
    | '.' :: tail => (tail.takeWhile isDigit, tail.dropWhile isDigit)
    | _ => ([], rest)
  if whole.isEmpty && fraction.isEmpty then none
  else do
    let digits ← digits? (whole ++ fraction) 0
    let e ← exponent? rest
    return (digits, e - fraction.length)

def magnitude? (negative : Bool) (cs : List Char) : Option FloatReading :=
  match String.ofList (cs.map Char.toLower) with
  | "inf" | "infinity" => some (.infinite negative)
  | "nan" => some .nan
  | _ => (decimal? cs).map fun (digits, e) =>
    match Double.ofDecimal? negative digits e with
    | some d => .finite d
    | none => .infinite negative

def float? : List Char → Option FloatReading
  | '-' :: cs => magnitude? true cs
  | '+' :: cs => magnitude? false cs
  | cs => magnitude? false cs

end Switchboard.Literal
