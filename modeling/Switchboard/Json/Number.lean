import Switchboard.Json.Value
import Switchboard.Number.Literal
import Switchboard.Number.Width

/-!
# JSON numbers from text

A literal of a sign and digits that fits a signed or an unsigned 64-bit integer
is that integer; every other one is the nearest binary64 value.
-/

namespace Switchboard.Json

def isInteger (n : Int) : Bool := Width.isLong n || Width.isWord n

/-- The number a literal stands for, if it is one and finite. -/
def number? (text : String) : Option Json :=
  match (Literal.integer? text.toList).filter isInteger with
  | some n => some (.int n)
  | none =>
    match Literal.float? text.toList with
    | some (.finite d) => some (.double d)
    | _ => none

end Switchboard.Json
