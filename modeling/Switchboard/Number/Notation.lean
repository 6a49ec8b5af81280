import Switchboard.Number.Shortest

/-!
# Number notation

The two written forms of a binary64 value. `Double.text` is positional between
`10^-5` and `10^16` with at least one digit after the point, and scientific
elsewhere. `Double.plain` is always positional and marks no fraction on an
integral value.
-/

namespace Switchboard

namespace Decimal

/-- The exponent of the first digit. -/
def leading (d : Decimal) : Int := d.exponent + (Nat.toDigits 10 d.digits).length - 1

def zeros (n : Nat) : String := String.ofList (List.replicate n '0')

/-- Digits before and after the point, without an exponent. -/
def positional (d : Decimal) : String × String :=
  let ds := Nat.toDigits 10 d.digits
  if 0 ≤ d.exponent then (String.ofList ds ++ zeros d.exponent.toNat, "")
  else
    let places := (-d.exponent).toNat
    if places < ds.length then
      (String.ofList (ds.take (ds.length - places)), String.ofList (ds.drop (ds.length - places)))
    else ("0", zeros (places - ds.length) ++ String.ofList ds)

def scientific (d : Decimal) : String :=
  let e := d.leading
  let mark := (if e < 0 then "e-" else "e+") ++ toString e.natAbs
  match Nat.toDigits 10 d.digits with
  | [] => mark
  | [c] => String.ofList [c] ++ mark
  | c :: cs => String.ofList [c, '.'] ++ String.ofList cs ++ mark

end Decimal

namespace Double

def signText (d : Double) : String := if d.negative then "-" else ""

/-- Positional while the first digit stands at `10^-5` to `10^15`. -/
def text (d : Double) : String :=
  let s := d.shortest
  d.signText ++
    if -5 ≤ s.leading ∧ s.leading < 16 then
      let (whole, fraction) := s.positional
      whole ++ "." ++ (if fraction = "" then "0" else fraction)
    else s.scientific

def plain (d : Double) : String :=
  let (whole, fraction) := d.shortest.positional
  d.signText ++ whole ++ (if fraction = "" then "" else "." ++ fraction)

end Double

/-- The positional form, with names for the values that have no digits. -/
def FloatReading.plain : FloatReading → String
  | .finite d => d.plain
  | .infinite negative => if negative then "-inf" else "inf"
  | .nan => "NaN"

end Switchboard
