import Switchboard.Number.Double

/-!
# Shortest decimals

`Double.shortest` gives the decimal with the fewest digits that reads back as
the value, and among those the nearest to it; of two equally near ones the
even digit wins. A decimal reads back when it lies in the interval of reals
that round to the value, ends included for an even mantissa. All tests are on
exact naturals.
-/

namespace Switchboard

/-- The magnitude `digits · 10^exponent`. -/
structure Decimal where
  digits : Nat
  exponent : Int
  deriving DecidableEq, Repr

namespace Decimal

/-- The same magnitude without trailing zeros. -/
def strip : Nat → Decimal → Decimal
  | 0, d => d
  | n + 1, d => if d.digits ≠ 0 ∧ d.digits % 10 = 0 then strip n ⟨d.digits / 10, d.exponent + 1⟩ else d

end Decimal

namespace Double

/-- Compares `a · 10^e` with `b · 2^f`. -/
def compareScaled (a : Nat) (e : Int) (b : Nat) (f : Int) : Ordering :=
  compare (a * Nat.pow 10 e.toNat * Nat.pow 2 (-f).toNat) (b * Nat.pow 2 f.toNat * Nat.pow 10 (-e).toNat)

/-- Ends of the interval that rounds to the value, in quarters of the last place. -/
def interval (d : Double) : Nat × Nat :=
  let below := if d.mantissa = Nat.pow 2 52 ∧ minExponent < d.exponent then 1 else 2
  (4 * d.mantissa - below, 4 * d.mantissa + 2)

/-- Whether `q · 10^g` reads back as the value. -/
def readsBack (d : Double) (q : Nat) (g : Int) : Bool :=
  let (lo, hi) := d.interval
  let f := d.exponent - 2
  let low := compareScaled q g lo f
  let high := compareScaled q g hi f
  if d.mantissa % 2 = 0 then low != .lt && high != .gt else low == .gt && high == .lt

/-- The exponent of the first significant digit of a non-zero value. -/
def decimalExponent (d : Double) : Int :=
  let (a, b) := scaled d.mantissa 1 d.exponent
  (Nat.toDigits 10 (a * Nat.pow 10 400 / b)).length - 401

/-- The value in steps of `10^g`: its two neighbours on that grid, the nearer one first. -/
def neighbours (d : Double) (g : Int) : List Nat :=
  let (a, b) := scaled d.mantissa 1 d.exponent
  let n := a * Nat.pow 10 (-g).toNat
  let m := b * Nat.pow 10 g.toNat
  let q := n / m
  let r := n % m
  if 2 * r < m ∨ (2 * r = m ∧ q % 2 = 0) then [q, q + 1] else [q + 1, q]

/-- The nearest decimal that reads back on the grids `10^g`, `10^(g-1)`, …. -/
def shortestFrom (d : Double) : Nat → Int → Decimal
  | 0, g => ⟨(d.neighbours g).headD 0, g⟩
  | n + 1, g =>
    match (d.neighbours g).find? (fun q => d.readsBack q g) with
    | some q => ⟨q, g⟩
    | none => shortestFrom d n (g - 1)

/-- The shortest decimal of the magnitude; zero is `0 · 10^0`. -/
def shortest (d : Double) : Decimal :=
  if d.mantissa = 0 then ⟨0, 0⟩
  else (d.shortestFrom 16 d.decimalExponent).strip 17

end Double
end Switchboard
