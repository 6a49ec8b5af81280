import Switchboard.Json.Value
import Switchboard.Number.Literal
import Switchboard.Number.Notation
import Switchboard.Rpc.ValueType

/-!
# Conversion of call arguments

`convert t v` turns a loosely typed JSON value into one of type `t`. A scalar
takes its natural JSON shape or a text that reads as it; null converts to null
for every type that is not primitive; unit and foreign types take nothing. A
bean is filled property by property: a writable property whose value is absent
or does not convert holds the default of its type, and read-only properties
never appear. `Canonical` describes the values that conversion yields.
-/

namespace Switchboard.Rpc

inductive ConversionFault where
  | unsupported (type : String)
  | nullPrimitive (type : String)
  | incompatible (type kind : String)
  | unreadable (type text : String)
  | outOfRange (type value : String)
  | unknownConstant (type text : String)
  deriving DecidableEq, Repr

def ConversionFault.kind : ConversionFault → String
  | unsupported _ => "Unsupported"
  | nullPrimitive _ => "NullPrimitive"
  | incompatible .. => "Incompatible"
  | unreadable .. => "Parse"
  | outOfRange .. => "OutOfRange"
  | unknownConstant .. => "UnknownConstant"

def ConversionFault.message : ConversionFault → String
  | unsupported t => "Cannot cast to " ++ t
  | nullPrimitive t => "Cannot cast null to primitive " ++ t
  | incompatible t k => "Cannot cast " ++ k ++ " to " ++ t
  | unreadable t s => "Cannot parse '" ++ s ++ "' as " ++ t
  | outOfRange t v => "Value " ++ v ++ " out of range for " ++ t
  | unknownConstant t s => "'" ++ s ++ "' is not a constant of " ++ t

/-! ## Scalars -/

/-- The signed 64-bit integer a text reads as, blanks around it aside. -/
def integerText? (s : String) : Option Int :=
  (Literal.integer? (Text.trimChars s.toList)).filter Width.isLong

def floatText? (s : String) : Option FloatReading :=
  Literal.float? (Text.trimChars s.toList)

/-- An integer within the range of its scalar. -/
def boundedInt (kind : Scalar) (type : String) (n : Int) : Except ConversionFault Json :=
  match kind.range? with
  | some (lo, hi) => if n < lo ∨ hi < n then .error (.outOfRange type (toString n)) else .ok (.int n)
  | none => .ok (.int n)

/-- A finite value, which for single precision is no larger than the largest single. -/
def boundedFloat (kind : Scalar) (type : String) (r : FloatReading) : Except ConversionFault Json :=
  match r with
  | .finite d =>
    if kind = .double ∨ d.fitsSingle then .ok (.double d) else .error (.outOfRange type r.plain)
  | _ => .error (.outOfRange type r.plain)

def convertBoolean (type : String) : Json → Except ConversionFault Json
  | .bool b => .ok (.bool b)
  | .string s =>
    match Text.bool? s with
    | some b => .ok (.bool b)
    | none => .error (.unreadable type s)
  | v => .error (.incompatible type v.kind)

def convertInteger (kind : Scalar) (type : String) : Json → Except ConversionFault Json
  | .int n => if Width.isLong n then boundedInt kind type n else .error (.unreadable type (toString n))
  | .double d =>
    match d.toInt?.filter Width.isLong with
    | some n => boundedInt kind type n
    | none => .error (.unreadable type d.text)
  | .string s =>
    match integerText? s with
    | some n => boundedInt kind type n
    | none => .error (.unreadable type s)
  | v => .error (.incompatible type v.kind)

def convertFloat (kind : Scalar) (type : String) : Json → Except ConversionFault Json
  | .int n => boundedFloat kind type (.finite (.ofInt n))
  | .double d => boundedFloat kind type (.finite d)
  | .string s =>
    match floatText? s with
    | some r => boundedFloat kind type r
    | none => .error (.unreadable type s)
  | v => .error (.incompatible type v.kind)

def convertChar (type : String) : Json → Except ConversionFault Json
  | .string s => if s.toList.length = 1 then .ok (.string s) else .error (.unreadable type s)
  | v => .error (.incompatible type v.kind)

def convertScalar (kind : Scalar) (type : String) (v : Json) : Except ConversionFault Json :=
  match kind with
  | .boolean => convertBoolean type v
  | .byte | .short | .int | .long => convertInteger kind type v
  | .float | .double => convertFloat kind type v
  | .char => convertChar type v

/-! ## Text and constants -/

def convertText : Json → Except ConversionFault Json
  | .string s => .ok (.string s)
  | .int n => .ok (.string (toString n))
  | .double d => .ok (.string d.text)
  | .bool b => .ok (.string (if b then "true" else "false"))
  | v => .error (.incompatible "String" v.kind)

def convertConstant (type : String) (constants : List String) : Json → Except ConversionFault Json
  | .string s =>
    if s ∈ constants then .ok (.string s) else .error (.unknownConstant type s)
  | v => .error (.incompatible type v.kind)

/-! ## All types -/

/-- What a property holds before it is filled. -/
def defaultValue : ValueType → Json
  | .primitive .boolean => .bool false
  | .primitive .float | .primitive .double => .double (.zero false)
  | .primitive .char => .string "\x00"
  | .primitive _ => .int 0
  | _ => .null

mutual
def convert : ValueType → Json → Except ConversionFault Json
  | .unit, _ => .error (.unsupported "void")
  | .foreign n, _ => .error (.unsupported n)
  | .primitive k, v => if v.isNull then .error (.nullPrimitive k.name) else convertScalar k k.name v
  | .boxed k, v => if v.isNull then .ok .null else convertScalar k k.boxedName v
  | .string, v => if v.isNull then .ok .null else convertText v
  | .enumeration n cs, v => if v.isNull then .ok .null else convertConstant n cs v
  | .bean n ps, v =>
    match v with
    | .null => .ok .null
    | .object source => .ok (.object (fill source ps []))
    | v => .error (.incompatible n v.kind)

/-- Sets the writable properties in order, a later one of the same name over an earlier one. -/
def fill (source : List (String × Json)) : List Property → List (String × Json) → List (String × Json)
  | [], acc => acc
  | ⟨n, t, writable⟩ :: ps, acc =>
    if writable then
      let value :=
        match Keyed.find? n source with
        | some v =>
          match convert t v with
          | .ok w => w
          | .error _ => defaultValue t
        | none => defaultValue t
      fill source ps (Keyed.insert n value acc)
    else fill source ps acc
end

/-! ## The values that conversion yields -/

def CanonicalScalar : Scalar → Json → Prop
  | .boolean, v => ∃ b, v = .bool b
  | .float, v => ∃ d, v = .double d ∧ d.fitsSingle
  | .double, v => ∃ d, v = .double d
  | .char, v => ∃ c, v = .string (String.ofList [c])
  | k, v => ∃ n lo hi, v = .int n ∧ k.range? = some (lo, hi) ∧ lo ≤ n ∧ n ≤ hi

/-- The last of the properties with the given name. -/
def lastNamed? (name : String) (ps : List Property) : Option Property :=
  (ps.filter fun p => p.writable && p.name = name).getLast?

mutual
def Canonical : ValueType → Json → Prop
  | .unit, _ | .foreign _, _ => False
  | .primitive k, v => CanonicalScalar k v
  | .boxed k, v => v = .null ∨ CanonicalScalar k v
  | .string, v => v = .null ∨ ∃ s, v = .string s
  | .enumeration _ cs, v => v = .null ∨ ∃ s ∈ cs, v = .string s
  | .bean _ ps, v => v = .null ∨ ∃ fields, v = .object fields ∧ Keyed.Sorted fields ∧
      (∀ name, (Keyed.find? name fields).isSome ↔ (lastNamed? name ps).isSome) ∧
      CanonicalFields fields ps

/-- Each writable property that no later one shadows holds a canonical value, or null where nothing is canonical. -/
def CanonicalFields (fields : List (String × Json)) : List Property → Prop
  | [] => True
  | ⟨n, t, writable⟩ :: ps =>
    (writable = true → (lastNamed? n ps).isNone → ∀ v, Keyed.find? n fields = some v →
      Canonical t v ∨ (v = .null ∧ (t.isUnit ∨ t.isForeign))) ∧
    CanonicalFields fields ps
end

end Switchboard.Rpc
