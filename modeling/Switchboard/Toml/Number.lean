import Switchboard.Number.Literal
import Switchboard.Number.Width

/-!
# TOML numbers

Whole tokens that stand for numbers. Underscores may stand between digits;
decimal numbers have no leading zeros; integers have 64 bits with a sign, and in
another base no sign. A float has a fraction or an exponent, or is one of the
two names; one that overflows upwards is no number.
-/

namespace Switchboard.Toml.Number

/-- The digits of a run without the underscores between them. -/
def digits? (isDigit : Char → Bool) : List Char → Option (List Char)
  | [] => none
  | [c] => if isDigit c then some [c] else none
  | c :: '_' :: r => if isDigit c then (digits? isDigit r).map (c :: ·) else none
  | c :: r => if isDigit c then (digits? isDigit r).map (c :: ·) else none

/-- Decimal digits without a leading zero. -/
def whole? (cs : List Char) : Option (List Char) :=
  (digits? Literal.isDigit cs).filter fun ds => ds = ['0'] || ds.head? ≠ some '0'

def inBase? (base : Nat) (cs : List Char) : Option Int := do
  let ds ← digits? (fun c => (Literal.hexDigit? c).any (· < base)) cs
  let n ← ds.foldlM (fun n c => do return base * n + (← Literal.hexDigit? c)) 0
  return n

/-- A sign, if there is one, and the rest. -/
def signed : List Char → List Char × List Char
  | '+' :: r => (['+'], r)
  | '-' :: r => (['-'], r)
  | r => ([], r)

def decimal? (cs : List Char) : Option Int := do
  let (sign, r) := signed cs
  Literal.integer? (sign ++ (← whole? r))

def integer? (cs : List Char) : Option Int :=
  let n := match cs with
    | '0' :: 'x' :: r => inBase? 16 r
    | '0' :: 'o' :: r => inBase? 8 r
    | '0' :: 'b' :: r => inBase? 2 r
    | cs => decimal? cs
  n.filter Width.isLong

def isRun (c : Char) : Bool := Literal.isDigit c || c = '_'

/-- A point and digits, or nothing. -/
def fraction? : List Char → Option (List Char × List Char)
  | '.' :: r => (digits? Literal.isDigit (r.takeWhile isRun)).map fun ds => ('.' :: ds, r.dropWhile isRun)
  | r => some ([], r)

/-- An exponent to the end of the token, or nothing. -/
def exponent? : List Char → Option (List Char)
  | [] => some []
  | c :: r =>
    if c = 'e' ∨ c = 'E' then
      let (sign, r) := signed r
      (digits? Literal.isDigit r).map fun ds => 'e' :: sign ++ ds
    else none

def decimalFloat? (sign r : List Char) : Option FloatReading := do
  let whole ← whole? (r.takeWhile isRun)
  let (fraction, rest) ← fraction? (r.dropWhile isRun)
  let exponent ← exponent? rest
  if fraction.isEmpty ∧ exponent.isEmpty then none
  else (Literal.float? (sign ++ whole ++ fraction ++ exponent)).filter (· ≠ .infinite false)

def float? (cs : List Char) : Option FloatReading :=
  let (sign, r) := signed cs
  match r with
  | ['i', 'n', 'f'] => some (.infinite (sign = ['-']))
  | ['n', 'a', 'n'] => some .nan
  | r => decimalFloat? sign r

end Switchboard.Toml.Number
