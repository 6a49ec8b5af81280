import Switchboard.Rpc.Descriptor
import Switchboard.Rpc.Implementation

/-!
# Validation

The rules that an interface, and then its implementation, must satisfy before
any call can reach them. The first broken rule in declaration order is reported.
-/

namespace Switchboard.Rpc

def validateParams (declaring method : String) : Nat → List Parameter → Except Fault Unit
  | _, [] => .ok ()
  | n, p :: ps =>
    match p.trimmedName? with
    | none => .error (.incomplete declaring method n)
    | some name =>
      if !p.required && p.type.isPrimitive then
        .error (.invalid declaring (.optionalPrimitive name method p.type.name))
      else validateParams declaring method (n + 1) ps

def validateMethod (declaring : String) (m : Method) : Except Fault Unit :=
  if !m.isPublic then .error (.invalid declaring (.notPublic m.name))
  else if m.isStatic then .error (.invalid declaring (.isStatic m.name))
  else if !m.exported then .error (.invalid declaring (.notExported m.name))
  else if m.returns.isUnit then .error (.invalid declaring (.returnsNothing m.name))
  else validateParams declaring m.name 0 m.params

/-- Validates methods in order, none with a prototype of `seen`. -/
def validateMethods (declaring : String) : List String → List Method → Except Fault Unit
  | _, [] => .ok ()
  | seen, m :: ms => do
    validateMethod declaring m
    let p := m.prototype declaring
    if p ∈ seen then throw (.invalid declaring (.duplicatePrototype p))
    validateMethods declaring (p :: seen) ms

def validateInterface (i : Interface) : Except Fault Unit :=
  if !i.remote then .error (.invalid i.name .notRemote)
  else if !i.component then .error (.invalid i.name .notComponent)
  else validateMethods i.name [] (i.methods.filter (·.exported))

/-- An implementation method that returns what the declared one does. -/
def validateBinding {ι : Type} (impl : Implementation ι) (m : MethodDescriptor) : Except Fault Unit :=
  match impl.bestMatch? m.name (m.params.map (·.type)) with
  | none => .error (.invalid impl.name (.unimplemented m.prototype))
  | some found =>
    if found.returns = m.returns then .ok ()
    else .error (.invalid impl.name (.returnsOther m.prototype found.returns.name m.returns.name))

def validateImplementation {ι : Type} (d : Descriptor) (impl : Implementation ι) : Except Fault Unit :=
  if Text.IsBlank impl.name then .error (.invalid d.name .unnamedImplementation)
  else d.methods.forM (validateBinding impl)

end Switchboard.Rpc
