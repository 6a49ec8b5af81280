import Switchboard.Container.Store
import Switchboard.Trial.Service

/-!
# Classes and hooks to try the container with

Handlers that copy the text of a request into the response, some of which fail
at a stage, fail by a list of rules, wait at a gate or pass calls on; and hooks
with a fixed verdict.
-/

namespace Switchboard.Trial

open Container (Remote Store)

/-! ## Copying text -/

/-- Copies the text of a plain request into a reply. -/
def copyPlain (before : String) (request response : Payload) : Payload × Except String Unit :=
  match request.spoken? with
  | none => (response, .error ("unsupported request type " ++ request.typeTag.name))
  | some s =>
    match response.writeReply? (before ++ s) with
    | none => (response, .error ("unsupported response type " ++ response.typeTag.name))
    | some r => (r, .ok ())

def writeAny (s : String) (response : Payload) : Payload × Except String Unit :=
  match response.write? s with
  | none => (response, .error ("cannot write " ++ response.typeTag.name))
  | some r => (r, .ok ())

/-- Copies the text of any request into any response. -/
def copyAny (before : String) (request response : Payload) : Payload × Except String Unit :=
  match request.request? with
  | none => (response, .error ("cannot read " ++ request.typeTag.name))
  | some s => writeAny (before ++ s) response

/-- The parameter that a handler writes before the text. -/
def prefixParam : String := "prefix"

def before (config : Option HandlerConfig) : String :=
  (config.bind fun c => c.params.get? prefixParam).getD ""

/-! ## Failing -/

/-- Fails a stage with a message, always or the first times that the stage is run. -/
structure FailRule where
  stage : Stage
  message : String
  times : Option Nat
  deriving DecidableEq, Repr

/-- Whether a rule fails the run of a stage that follows `n` others. -/
def FailRule.applies (stage : Stage) (n : Nat) (f : FailRule) : Bool := f.stage = stage && f.times.all (n < ·)

/-- How the run of a stage that follows `n` others fails: by the first rule that applies. -/
def failure? (stage : Stage) (n : Nat) (rules : List FailRule) : Option String :=
  (rules.find? (·.applies stage n)).map (·.message)

def verdict (rules : List FailRule) (stage : Stage) (n : Nat) : Except String Unit :=
  match failure? stage n rules with
  | some message => .error message
  | none => .ok ()

/-- What a handler that fails at a stage says. -/
def refusal : Stage → String
  | .construct => "construction refused"
  | .init => "init refused"
  | .process => "process refused"
  | .destroy => "destroy refused"

/-! ## Classes -/

inductive ClassSpec where
  | echo (typeName : String)
  | probe (name : String) (instancing : Instancing)
  | failing (name : String) (instancing : Instancing) (stage : Stage)
  | pooled (typeName : String) (recyclable : Bool)
  | script (name : String) (instancing : Instancing) (recyclable : Bool) (gate : Option String)
      (rules : List FailRule)
  | remote (interface : Rpc.Interface) (service : Service) (filter : Rpc.MethodDescriptor → Bool)
      (data : Params)

/-- A class that fails by rules and otherwise answers with `copy`. -/
def ruledClass (typeName : String) (instancing : Instancing) (recyclable : Bool) (gate : Option String)
    (rules : List FailRule) (copy : Option HandlerConfig → Payload → Payload → Payload × Except String Unit) :
    HandlerClass where
  typeName := typeName
  instancing := instancing
  recyclable := recyclable
  construct := verdict rules .construct
  init n _ := verdict rules .init n
  gate := gate
  duty := .answer fun n config request response =>
    match verdict rules .process n with
    | .error cause => (response, .error cause)
    | .ok () => copy config request response
  destroy := verdict rules .destroy

def addClass (s : Store) (c : HandlerClass) : Store × Except Rpc.Fault HandlerClass :=
  ({ s with classes := s.classes.add c }, .ok c)

/-- Defines a class. One that passes calls on needs an endpoint, which may not come about. -/
def ClassSpec.define (s : Store) : ClassSpec → Store × Except Rpc.Fault HandlerClass
  | echo typeName => addClass s (ruledClass typeName .stateless false none [] fun _ => copyPlain "")
  | probe name instancing =>
    addClass s (ruledClass name instancing (instancing = .recyclable) none [] fun c => copyPlain (before c))
  | failing name instancing stage =>
    addClass s (ruledClass name instancing false none [⟨stage, refusal stage, none⟩] fun _ => copyPlain "")
  | pooled typeName recyclable =>
    addClass s { ruledClass typeName .recyclable recyclable none [] fun _ => copyAny "" with
      interchangeable := true }
  | script name instancing recyclable gate rules =>
    addClass s (ruledClass name instancing recyclable gate rules fun c => copyAny (before c))
  | remote interface service filter data =>
    match Rpc.Endpoint.build interface service.implementation filter data with
    | (_, .error f) => (s, .error f)
    | (ledger, .ok e) =>
      let endpoint : Remote := ⟨e.descriptor.name, ledger, e.call⟩
      addClass { s with remotes := s.remotes.add endpoint } (.remote e.descriptor.name s.remotes.size)

/-! ## Hooks -/

inductive HookSpec where
  | allow
  | deny
  | recording (allow : Bool)
  | fixed (allow error : Option String)
  deriving DecidableEq, Repr

/-- Refuses by a note in a reply; other responses are left alone. -/
def recordingHook (allow : Bool) : CapabilityHook where
  admits _ _ _ := allow
  refuse _ _ e := ({ e with response := (e.response.writeReply? "denied").getD e.response }, .ok ())

/-- Admits the requests with one text. -/
def fixedHook (allow error : Option String) : CapabilityHook where
  admits _ _ e := e.request.request? = allow
  refuse _ handler e :=
    match error with
    | some cause => (e, .error cause)
    | none =>
      let (response, outcome) := writeAny ("refused " ++ handler) e.response
      ({ e with response }, outcome)

def HookSpec.hook : HookSpec → CapabilityHook
  | allow => .allowAll
  | deny => .denyAll
  | recording a => recordingHook a
  | fixed a e => fixedHook a e

end Switchboard.Trial
