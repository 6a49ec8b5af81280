/-!
# Finite binary64 values

A `Double` is `(-1)^negative · mantissa · 2^exponent` with a 53-bit mantissa,
held exactly. The mantissa and the exponent are the ones binary64 uses, so that
equal values have equal fields. Quotients of naturals are rounded to the nearest
value, ties to the even mantissa; a value past the largest one is an overflow and
has no `Double`.
-/

namespace Switchboard

structure Double where
  negative : Bool
  mantissa : Nat
  exponent : Int
  deriving DecidableEq, Repr

namespace Double

/-- The exponent of the subnormal values. -/
def minExponent : Int := -1074

/-- The exponent of the largest values. -/
def maxExponent : Int := 971

def zero (negative : Bool) : Double := ⟨negative, 0, minExponent⟩

instance : Inhabited Double := ⟨zero false⟩

/-- The quotient `n / d` to the nearest integer, a half going to the even one. -/
def roundHalfEven (n d : Nat) : Nat :=
  let q := n / d
  let r := n % d
  if 2 * r < d then q else if d < 2 * r then q + 1 else q + q % 2

/-- `n · 2^e` as a fraction. -/
def scaled (n d : Nat) (e : Int) : Nat × Nat :=
  (n * Nat.pow 2 e.toNat, d * Nat.pow 2 (-e).toNat)

/-- The exponent at which `n / d` has a 53-bit integer part, no lower than the subnormal one. -/
def exponentFor (n d : Nat) : Int :=
  let e : Int := (Nat.log2 n : Int) - Nat.log2 d - 52
  let (a, b) := scaled n d (-e)
  max minExponent (if a < b * Nat.pow 2 52 then e - 1 else e)

/-- The nearest value to `n / d`, or `none` past the largest value. -/
def ofRatio? (negative : Bool) (n d : Nat) : Option Double :=
  if n = 0 then some (zero negative) else
  let e := exponentFor n d
  let (a, b) := scaled n d (-e)
  let m := roundHalfEven a b
  let (m, e) := if m = Nat.pow 2 53 then (Nat.pow 2 52, e + 1) else (m, e)
  if maxExponent < e then none else some ⟨negative, m, e⟩

/--
The nearest value to `digits · 10^exponent`. A decimal below half the least
value is zero and one above `10^310` overflows, whatever its exponent.
-/
def ofDecimal? (negative : Bool) (digits : Nat) (exponent : Int) : Option Double :=
  if digits = 0 then some (zero negative) else
  let size := exponent + (Nat.toDigits 10 digits).length
  if size < -330 then some (zero negative)
  else if 310 < size then none
  else ofRatio? negative (digits * Nat.pow 10 exponent.toNat) (Nat.pow 10 (-exponent).toNat)

/-- The nearest value to an integer of at most 64 bits. -/
def ofInt (n : Int) : Double :=
  (ofRatio? (decide (n < 0)) n.natAbs 1).getD (zero false)

/-- The value as an integer, when it has no fractional part. -/
def toInt? (d : Double) : Option Int :=
  let (a, b) := scaled d.mantissa 1 d.exponent
  if a % b = 0 then
    let n : Int := (a / b : Nat)
    some (if d.negative then -n else n)
  else none

/-- The magnitude is at most the integer `n`. -/
def magnitudeLe (d : Double) (n : Nat) : Bool :=
  let (a, b) := scaled d.mantissa 1 d.exponent
  a ≤ n * b

/-- The largest finite single-precision value. -/
def singleMax : Nat := (Nat.pow 2 24 - 1) * Nat.pow 2 104

def fitsSingle (d : Double) : Bool := d.magnitudeLe singleMax

theorem fitsSingle_zero (b : Bool) : (zero b).fitsSingle = true := by
  simp [fitsSingle, magnitudeLe, scaled, zero]

end Double

/-- What a floating-point literal reads as. -/
inductive FloatReading where
  | finite (value : Double)
  | infinite (negative : Bool)
  | nan
  deriving DecidableEq, Repr

end Switchboard
