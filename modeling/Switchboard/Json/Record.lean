import Switchboard.Json.Value
import Switchboard.Number.Width

/-!
# Records in JSON

A record is read from an object by field name, unknown fields being ignored, or
from an array by position, missing fields at the end counting as absent. Formats
differ in what they make of an array that is too long. The readers of single
fields fail on any other shape.
-/

namespace Switchboard.Json

/-- What becomes of the items of an array beyond the fields of the record. -/
inductive Surplus where
  | refused
  | ignored
  deriving DecidableEq, Repr

/-- The fields of a record with the given field names. -/
def record? (surplus : Surplus) (names : List String) : Json → Option (List (String × Json))
  | .object fields => some fields
  | .array items =>
    if surplus = .ignored ∨ items.length ≤ names.length then some (names.zip items) else none
  | _ => none

def text? : Json → Option String
  | .string s => some s
  | _ => none

def bool? : Json → Option Bool
  | .bool b => some b
  | _ => none

/-- An unsigned 64-bit integer. -/
def count? : Json → Option Nat
  | .int n => if Width.isWord n then some n.toNat else none
  | _ => none

/-- A text, or null for an absent one. -/
def optionalText? : Json → Option (Option String)
  | .null => some none
  | .string s => some (some s)
  | _ => none

/-- The name of a variant without contents: a text, or an object whose one field is null. -/
def variant? : Json → Option String
  | .string s => some s
  | .object [(name, .null)] => some name
  | _ => none

/-- A list whose items all read. -/
def list? {α : Type} (item : Json → Option α) : Json → Option (List α)
  | .array items => items.mapM item
  | _ => none

/-- An object whose values are all texts. -/
def texts? : Json → Option (List (String × String))
  | .object fields => fields.mapM fun (k, v) => v.text?.map fun s => (k, s)
  | _ => none

/-- A field that must be there. -/
def required {α : Type} (read : Json → Option α) (name : String) (fields : List (String × Json)) :
    Option α :=
  (Keyed.find? name fields).bind read

/-- A field with a default; one that is there has to read. -/
def defaulted {α : Type} (fallback : α) (read : Json → Option α) (name : String)
    (fields : List (String × Json)) : Option α :=
  match Keyed.find? name fields with
  | some v => read v
  | none => some fallback

/-! ## Writing -/

/-- A text, or null for an absent one. -/
def ofText? (s : Option String) : Json := (s.map string).getD null

def ofTexts (ss : List String) : Json := array (ss.map string)

def ofNat (n : Nat) : Json := int n

/-- An object of texts. -/
def ofTextFields (fs : List (String × String)) : Json := ofFields (fs.map fun (k, v) => (k, string v))

end Switchboard.Json
