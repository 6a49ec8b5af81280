import Switchboard.Lifecycle.Board
import Switchboard.Settings

/-!
# Faults of the container

Everything that a registry, a dispatch or the building of a tree can fail with.
Only a failing handler, or a failing refusal of a hook, counts as a handler
failure; everything else is the container's own.
-/

namespace Switchboard.Container

/-- Why a component cannot be taken over. -/
inductive Refusal where
  | inState (s : Lifecycle.State)
  | ownedBy (name : String)
  deriving DecidableEq, Repr

def Refusal.message : Refusal → String
  | inState s => "component is " ++ s.name
  | ownedBy n => "already owned by '" ++ n ++ "'"

/-- What keeps a topology from becoming a tree. -/
inductive TopologyFlaw where
  | duplicate (kind name parent : String)
  | unknownClass (name : String)
  | unknownType (name : String)
  | unknownHook (name : String)
  | unregisteredDefault (handler context : String)
  deriving DecidableEq, Repr

def TopologyFlaw.message : TopologyFlaw → String
  | duplicate k n p => "duplicate " ++ k ++ " '" ++ n ++ "' in '" ++ p ++ "'"
  | unknownClass n => "unknown handler class '" ++ n ++ "'"
  | unknownType n => "unknown payload type '" ++ n ++ "'"
  | unknownHook n => "unknown capability hook '" ++ n ++ "'"
  | unregisteredDefault h c => "default handler '" ++ h ++ "' of context '" ++ c ++ "' is not registered"

inductive Fault where
  | lifecycle (fault : Lifecycle.Fault)
  | ownership (child owner : String) (reason : Refusal)
  | handlerNotFound (handler context : String)
  | construction (handler cause : String)
  | notRecyclable (className : String)
  | handler (handler cause : String)
  | topology (flaw : TopologyFlaw)
  | settings (fault : SettingsFault)
  deriving DecidableEq, Repr

namespace Fault

def kind : Fault → String
  | lifecycle _ => "Lifecycle"
  | ownership .. => "OwnershipConflict"
  | handlerNotFound .. => "HandlerNotFound"
  | construction .. => "HandlerConstruction"
  | notRecyclable _ => "InvalidHandlerClass"
  | handler .. => "Handler"
  | topology _ => "Bootstrap"
  | settings _ => "Config"

def message : Fault → String
  | lifecycle f => f.message
  | ownership c o r => "Component '" ++ c ++ "' cannot be owned by '" ++ o ++ "': " ++ r.message
  | handlerNotFound h c => "Handler '" ++ h ++ "' not found in context '" ++ c ++ "'"
  | construction h cause => "Failed to construct handler '" ++ h ++ "': " ++ cause
  | notRecyclable c =>
    "Invalid handler class '" ++ c ++ "': declared RECYCLABLE but does not implement Recyclable"
  | handler h cause => "Handler '" ++ h ++ "' failed: " ++ cause
  | topology f => "Bootstrap failed: " ++ f.message
  | settings f => "Invalid configuration: " ++ f.message

def isHandlerFailure : Fault → Bool
  | handler .. => true
  | _ => false

/-- The text of the fault underneath. -/
def cause? : Fault → Option String
  | construction _ c | handler _ c => some c
  | _ => none

end Fault
end Switchboard.Container
