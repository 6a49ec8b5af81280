import Switchboard.Instancing
import Switchboard.Payload.Basic

/-!
# Handler classes

A class builds handlers and says what they do. The functions of a class are
told how often the class did the same before, so a class may fail in any
pattern. A handler either answers a request itself, possibly after a permit of a
gate, or passes calls on to a remote endpoint.
-/

namespace Switchboard

/-- What a handler is initialized with: its name, its context's name and its parameters. -/
structure HandlerConfig where
  handler : String
  context : String
  params : Params
  deriving DecidableEq

inductive Duty where
  /-- The response and the outcome, from the configuration, the request and the response so far. -/
  | answer (reply : Nat → Option HandlerConfig → Payload → Payload → Payload × Except String Unit)
  | remote (endpoint : Nat)

structure HandlerClass where
  typeName : String
  instancing : Instancing
  recyclable : Bool
  /-- Whether its handlers hold nothing and are not shared, so that none can be told from another. -/
  interchangeable : Bool := false
  construct : Nat → Except String Unit
  init : Nat → HandlerConfig → Except String Unit
  gate : Option String
  duty : Duty
  destroy : Nat → Except String Unit

/-- A class whose handlers never fail and leave the response as it is. -/
def HandlerClass.idle : HandlerClass where
  typeName := ""
  instancing := .stateful
  recyclable := false
  construct _ := .ok ()
  init _ _ := .ok ()
  gate := none
  duty := .answer fun _ _ _ response => (response, .ok ())
  destroy _ := .ok ()

instance : Inhabited HandlerClass := ⟨.idle⟩

/-- A class whose handlers pass all calls on to one endpoint, which they share. -/
def HandlerClass.remote (interface : String) (endpoint : Nat) : HandlerClass :=
  { HandlerClass.idle with
    typeName := "rpc:" ++ interface, instancing := .stateless, duty := .remote endpoint }

/-- A class that asks to be recycled without being able to. -/
def HandlerClass.isInvalid (c : HandlerClass) : Bool := c.instancing = .recyclable && !c.recyclable

end Switchboard
