import Switchboard.Instancing
import Switchboard.Json.Record
import Switchboard.Params
import Switchboard.Rpc.Interface

/-!
# Implementations

An implementation builds instances and has a body for each of its methods. The
factory, the injection and the bodies are told how often they ran before, so
they may fail in any pattern. `bestMatch?` picks the method that serves a
declared one: the first with exactly its types, else the first that accepts them.
-/

namespace Switchboard.Rpc

/-- Who calls, and with which attributes. -/
structure CallContext where
  caller : Option String
  attributes : Params
  deriving DecidableEq

/-- A call of one method, with its arguments by parameter name. -/
structure MethodCall where
  prototype : String
  params : List (String × Json)

/-- Reads a call; the arguments may be left out. -/
def MethodCall.ofJson? (v : Json) : Option MethodCall := do
  let fields ← v.record? .refused ["prototype", "params"]
  let prototype ← Json.required Json.text? "prototype" fields
  let params ← Json.defaulted [] (fun | .object fs => some fs | _ => none) "params" fields
  return ⟨prototype, params⟩

/-- The arguments of a call after binding. -/
structure Args where
  values : List (String × Json)

structure ImplementedMethod (ι : Type) where
  name : String
  params : List ValueType
  returns : ValueType
  isPublic : Bool
  body : Nat → ι → CallContext → Args → Except String Json

structure Implementation (ι : Type) where
  name : String
  instancing : Instancing
  build : Nat → Params → Except String ι
  inject : Option (Nat → ι → Params → Except String ι)
  methods : List (ImplementedMethod ι)

namespace Implementation

variable {ι : Type}

/-- Whether every actual type may be passed to the formal one at its place. -/
def acceptsAll (formal actual : List ValueType) : Bool :=
  (formal.zip actual).all fun (f, a) => f.accepts a

/-- A public method of the given name that takes as many parameters. -/
def isCandidate (name : String) (params : List ValueType) (m : ImplementedMethod ι) : Bool :=
  m.isPublic && m.name = name && m.params.length = params.length

def isExact (name : String) (params : List ValueType) (m : ImplementedMethod ι) : Bool :=
  isCandidate name params m && m.params = params

def isSuitable (name : String) (params : List ValueType) (m : ImplementedMethod ι) : Bool :=
  isCandidate name params m && acceptsAll m.params params

def bestMatch? (impl : Implementation ι) (name : String) (params : List ValueType) :
    Option (ImplementedMethod ι) :=
  (impl.methods.find? (isExact name params)).or (impl.methods.find? (isSuitable name params))

/-- Where the best match stands among the methods. -/
def bestPosition? (impl : Implementation ι) (name : String) (params : List ValueType) : Option Nat :=
  (impl.methods.findIdx? (isExact name params)).or (impl.methods.findIdx? (isSuitable name params))

end Implementation
end Switchboard.Rpc
