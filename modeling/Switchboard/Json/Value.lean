import Switchboard.Keyed
import Switchboard.Number.Double

/-!
# JSON values

Numbers are integers of at most 64 bits, signed or unsigned, or finite binary64
values; the two kinds are never equal. An object lists its fields in key order.
-/

namespace Switchboard

inductive Json where
  | null
  | bool (value : Bool)
  | int (value : Int)
  | double (value : Double)
  | string (value : String)
  | array (items : List Json)
  | object (fields : List (String × Json))
  deriving Repr, Inhabited

namespace Json

/-- The object of the given entries; the last of several entries for one key counts. -/
def ofFields (fields : List (String × Json)) : Json := .object (Keyed.ofList fields)

def isNull : Json → Bool
  | .null => true
  | _ => false

/-- The name of the value's shape. -/
def kind : Json → String
  | .null => "null"
  | .bool _ => "boolean"
  | .int _ | .double _ => "number"
  | .string _ => "string"
  | .array _ => "array"
  | .object _ => "object"

/-- A field of an object. -/
def field? (name : String) : Json → Option Json
  | .object fields => Keyed.find? name fields
  | _ => none

end Json
end Switchboard
