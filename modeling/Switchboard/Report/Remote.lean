import Switchboard.Json.Record
import Switchboard.Rpc.Descriptor

/-!
# Reports of types and descriptors

Value types and the descriptors of interfaces as JSON records. A type reports what
belongs to its sort: the scalar, the constants or the properties.
-/

namespace Switchboard.Rpc

def codeText (c : Char) : Json := .string (String.ofList [c])

def rangeReport (r : Option (Int × Int)) : Json :=
  (r.map fun (lo, hi) => Json.array [.int lo, .int hi]).getD .null

def Scalar.fields (k : Scalar) : List (String × Json) :=
  [("scalar", .array [codeText k.code, .string k.name, .string k.boxedName, rangeReport k.range?])]

def ValueType.reportWith (own : List (String × Json)) (t : ValueType) : Json :=
  .ofFields ([("code", codeText t.code), ("name", .string t.name), ("display", .string t.name),
    ("primitive", .bool t.isPrimitive), ("unit", .bool t.isUnit)] ++ own)

mutual
def ValueType.report : ValueType → Json
  | .primitive k => ValueType.reportWith (Scalar.fields k) (.primitive k)
  | .boxed k => ValueType.reportWith (Scalar.fields k) (.boxed k)
  | .enumeration n cs => ValueType.reportWith [("constants", .ofTexts cs)] (.enumeration n cs)
  | .bean n ps => ValueType.reportWith [("props", .array (Property.reports ps))] (.bean n ps)
  | .unit => ValueType.reportWith [] .unit
  | .string => ValueType.reportWith [] .string
  | .foreign n => ValueType.reportWith [] (.foreign n)

def Property.reports : List Property → List Json
  | [] => []
  | ⟨name, type, writable⟩ :: ps =>
    .ofFields [("name", .string name), ("type", type.report), ("writable", .bool writable)] ::
      Property.reports ps
end

/-! ## Descriptors -/

def ParameterDescriptor.report (p : ParameterDescriptor) : Json :=
  .ofFields [("name", .string p.name), ("type", .string p.type.name), ("required", .bool p.required),
    ("public", .bool p.isPublic)]

def MethodDescriptor.report (m : MethodDescriptor) : Json :=
  .ofFields [("name", .string m.name), ("prototype", .string m.prototype),
    ("description", .string m.description), ("returns", .string m.returns.name),
    ("params", .array (m.params.map ParameterDescriptor.report))]

def Descriptor.report (d : Descriptor) : Json :=
  .ofFields [("name", .string d.name), ("methods", .array (d.methods.map MethodDescriptor.report))]

end Switchboard.Rpc
