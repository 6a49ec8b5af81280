import Switchboard.Rpc.Conversion

/-!
# Faults of remote calls

Everything that can go wrong from describing an interface to running a method.
`Flaw` is the rule that an interface or an implementation breaks. Only a fault
raised by the method itself is a target failure.
-/

namespace Switchboard.Rpc

inductive Flaw where
  | notRemote
  | notComponent
  | notPublic (method : String)
  | isStatic (method : String)
  | notExported (method : String)
  | returnsNothing (method : String)
  | optionalPrimitive (parameter method type : String)
  | duplicatePrototype (prototype : String)
  | unnamedImplementation
  | unimplemented (prototype : String)
  | returnsOther (prototype actual declared : String)
  deriving DecidableEq, Repr

def Flaw.message : Flaw → String
  | notRemote => "missing remote component marker"
  | notComponent => "interface does not extend the component capability"
  | notPublic m => "method '" ++ m ++ "' is not public"
  | isStatic m => "method '" ++ m ++ "' is static"
  | notExported m => "method '" ++ m ++ "' is not exported"
  | returnsNothing m => "method '" ++ m ++ "' returns no value"
  | optionalPrimitive p m t =>
    "parameter '" ++ p ++ "' of '" ++ m ++ "' is optional but has primitive type " ++ t
  | duplicatePrototype p => "duplicate prototype " ++ p
  | unnamedImplementation => "implementation has no name"
  | unimplemented p => "no implementation for " ++ p
  | returnsOther p a d => p ++ " returns " ++ a ++ " but the interface declares " ++ d

inductive Fault where
  | incomplete (interface method : String) (position : Nat)
  | invalid (subject : String) (flaw : Flaw)
  | methodNotFound (prototype : String)
  | missingParameter (prototype parameter : String)
  | conversion (prototype parameter : String) (cause : ConversionFault)
  | target (prototype cause : String)
  | invocation (prototype cause : String)
  deriving DecidableEq, Repr

namespace Fault

def kind : Fault → String
  | incomplete .. => "InterfaceIncomplete"
  | invalid .. => "InvalidRpcClass"
  | methodNotFound _ => "MethodNotFound"
  | missingParameter .. => "MissingRequiredParameter"
  | conversion .. => "UnsupportedTypeConversion"
  | target .. => "InvocationTargetFailure"
  | invocation .. => "InvocationFailure"

def message : Fault → String
  | incomplete i m n =>
    "Interface '" ++ i ++ "' is incomplete: parameter #" ++ toString n ++ " of '" ++ m ++ "' has no name"
  | invalid s f => "Invalid RPC class '" ++ s ++ "': " ++ f.message
  | methodNotFound p => "Method not found: " ++ p
  | missingParameter p n => "Parameter '" ++ n ++ "' not found for " ++ p
  | conversion p n c => "Cannot convert parameter '" ++ n ++ "' of " ++ p ++ ": " ++ c.message
  | target p c => p ++ " failed: " ++ c
  | invocation p c => "Invocation of " ++ p ++ " failed: " ++ c

def isTargetFailure : Fault → Bool
  | target .. => true
  | _ => false

/-- The text of the fault underneath. -/
def cause? : Fault → Option String
  | conversion _ _ c => some c.message
  | target _ c | invocation _ c => some c
  | _ => none

end Fault
end Switchboard.Rpc
