import Switchboard.Rpc.Fault
import Switchboard.Rpc.Interface

/-!
# Descriptors

What callers know of a remote interface: its visible methods in order, with
trimmed parameter names and prototypes. A parameter without a name, or two
methods with one prototype, make the interface undescribable.
-/

namespace Switchboard.Rpc

structure ParameterDescriptor where
  name : String
  type : ValueType
  required : Bool
  isPublic : Bool
  deriving DecidableEq

structure MethodDescriptor where
  name : String
  params : List ParameterDescriptor
  returns : ValueType
  description : String
  prototype : String
  deriving DecidableEq

structure Descriptor where
  name : String
  methods : List MethodDescriptor
  deriving DecidableEq

/-- The name of a parameter without blanks around it, unless nothing remains. -/
def Parameter.trimmedName? (p : Parameter) : Option String :=
  (p.name.map Text.trim).filter (· ≠ "")

def describeParams (declaring method : String) : Nat → List Parameter → Except Fault (List ParameterDescriptor)
  | _, [] => .ok []
  | n, p :: ps =>
    match p.trimmedName? with
    | none => .error (.incomplete declaring method n)
    | some name => (describeParams declaring method (n + 1) ps).map
        (⟨name, p.type, p.required, p.isPublic⟩ :: ·)

def MethodDescriptor.of (declaring : String) (m : Method) : Except Fault MethodDescriptor :=
  (describeParams declaring m.name 0 m.params).map fun params =>
    ⟨m.name, params, m.returns, m.description, m.prototype declaring⟩

/-- Describes methods in order, none with a prototype of `seen`. -/
def describeMethods (declaring : String) : List String → List Method → Except Fault (List MethodDescriptor)
  | _, [] => .ok []
  | seen, m :: ms => do
    let d ← MethodDescriptor.of declaring m
    if d.prototype ∈ seen then throw (.invalid declaring (.duplicatePrototype d.prototype))
    let ds ← describeMethods declaring (d.prototype :: seen) ms
    return d :: ds

namespace Descriptor

def of (i : Interface) : Except Fault Descriptor :=
  if i.remote then (describeMethods i.name [] i.visible).map (⟨i.name, ·⟩)
  else .error (.invalid i.name .notRemote)

/-- The position of the method with the given prototype. -/
def position? (d : Descriptor) (prototype : String) : Option Nat :=
  d.methods.findIdx? fun m => m.prototype = prototype

def overloads (d : Descriptor) (name : String) : List MethodDescriptor :=
  d.methods.filter fun m => m.name = name

end Descriptor
end Switchboard.Rpc
