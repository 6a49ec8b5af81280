import Switchboard.Json.Value

/-!
# TOML values

The values of a TOML document. `toJson` gives the record readers what they
take: a date or time becomes an object with the one field `momentField`, and a
float, which no record takes, an arbitrary one when it is not finite.
-/

namespace Switchboard.Toml

inductive Value where
  | string (text : String)
  | integer (value : Int)
  | float (reading : FloatReading)
  | boolean (value : Bool)
  | moment (text : String)
  | array (items : List Value)
  | table (fields : List (String × Value))
  deriving Repr, Inhabited

def momentField : String := "$__toml_private_datetime"

namespace Value

mutual
def toJson : Value → Json
  | .string s => .string s
  | .integer n => .int n
  | .float (.finite d) => .double d
  | .float _ => .double (.zero false)
  | .boolean b => .bool b
  | .moment s => .object [(momentField, .string s)]
  | .array items => .array (itemsToJson items)
  | .table fields => .ofFields (fieldsToJson fields)

def itemsToJson : List Value → List Json
  | [] => []
  | v :: vs => toJson v :: itemsToJson vs

def fieldsToJson : List (String × Value) → List (String × Json)
  | [] => []
  | (k, v) :: fs => (k, toJson v) :: fieldsToJson fs
end

end Value
end Switchboard.Toml
