/-!
# Instancing policies

How many instances serve the calls of a class: a stateless class shares one
instance among all calls, the other two policies build one for each call.
-/

namespace Switchboard

inductive Instancing where
  | stateful | stateless | recyclable
  deriving DecidableEq, Repr

namespace Instancing

instance : Inhabited Instancing := ⟨stateful⟩

def all : List Instancing := [stateful, stateless, recyclable]

def name : Instancing → String
  | stateful => "STATEFUL"
  | stateless => "STATELESS"
  | recyclable => "RECYCLABLE"

def ofName? (s : String) : Option Instancing := all.find? fun i => i.name = s

def sharesInstance (i : Instancing) : Bool := i = stateless

theorem ofName?_name (i : Instancing) : ofName? i.name = some i := by cases i <;> decide

end Instancing
end Switchboard
