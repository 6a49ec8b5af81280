import Switchboard.Rpc.ValueType

/-!
# Remote interfaces

The written description of a remote component: its methods with their named
parameters, and the marks that say what may be called from outside. A
prototype names one method of an interface by the codes of its types.
-/

namespace Switchboard.Rpc

/-- A formal parameter. A public one takes the caller's value unconverted. -/
structure Parameter where
  name : Option String
  type : ValueType
  required : Bool
  isPublic : Bool
  deriving DecidableEq

structure Method where
  name : String
  isPublic : Bool
  isStatic : Bool
  exported : Bool
  params : List Parameter
  returns : ValueType
  description : String
  deriving DecidableEq

structure Interface where
  name : String
  remote : Bool
  component : Bool
  methods : List Method
  deriving DecidableEq

/-- The methods that callers outside may see. -/
def Interface.visible (i : Interface) : List Method :=
  i.methods.filter fun m => m.isPublic && m.exported

/-- `declaring.method(codes)code`. -/
def prototype (declaring method : String) (params : List ValueType) (returns : ValueType) : String :=
  declaring ++ "." ++ method ++ "(" ++ String.ofList (params.map ValueType.code) ++ ")" ++
    String.ofList [returns.code]

def Method.prototype (m : Method) (declaring : String) : String :=
  Rpc.prototype declaring m.name (m.params.map (·.type)) m.returns

end Switchboard.Rpc
