import Switchboard.Meter
import Switchboard.Rpc.Validation

/-!
# Endpoints

An endpoint binds an interface to an implementation and runs calls by
prototype: look up, bind the arguments, obtain an instance, run the body. A
stateless implementation is built once, at construction; the other policies
build an instance for each call that got that far. `Ledger` is what has
happened at an endpoint so far: the factory and injection runs, the bodies run
and the meters.
-/

namespace Switchboard.Rpc

/-- Something an implementation was asked to do. Instances are numbered by the factory run that made them. -/
inductive Happening where
  | built (number : Nat)
  | injected (number : Nat)
  | invoked (number : Nat) (prototype : String)
  deriving DecidableEq, Repr

/-- The happenings and the meter readings so far, newest first, and the number of factory runs. -/
structure Ledger where
  builds : Nat
  happenings : List Happening
  readings : List Meter
  deriving DecidableEq

namespace Ledger

def empty : Ledger := ⟨0, [], []⟩

def note (l : Ledger) (h : Happening) : Ledger := { l with happenings := h :: l.happenings }

def measure (l : Ledger) (m : Meter) : Ledger := { l with readings := m :: l.readings }

/-- How many bodies have run. -/
def invocations (l : Ledger) : Nat :=
  l.happenings.countP fun | .invoked .. => true | _ => false

end Ledger

/-- An instance with the number of the factory run that made it. -/
structure Numbered (ι : Type) where
  number : Nat
  value : ι

structure Binding (ι : Type) where
  method : MethodDescriptor
  serving : ImplementedMethod ι

structure Endpoint (ι : Type) where
  descriptor : Descriptor
  implementation : Implementation ι
  bindings : List (Binding ι)
  shared : Option (Numbered ι)
  data : Params

namespace Endpoint

variable {ι : Type}

/-- Builds and injects a fresh instance. -/
def instantiate (impl : Implementation ι) (data : Params) (l : Ledger) :
    Ledger × Except String (Numbered ι) :=
  let n := l.builds
  let l := { l with builds := n + 1 }.note (.built n)
  match impl.build n data with
  | .error cause => (l, .error cause)
  | .ok value =>
    match impl.inject with
    | none => (l, .ok ⟨n, value⟩)
    | some inject =>
      let l := l.note (.injected n)
      match inject n value data with
      | .error cause => (l, .error cause)
      | .ok value => (l, .ok ⟨n, value⟩)

/-- Binds the methods that the filter accepts. -/
def bind (d : Descriptor) (impl : Implementation ι) (filter : MethodDescriptor → Bool) :
    List (Binding ι) :=
  (d.methods.filter filter).filterMap fun m =>
    (impl.bestMatch? m.name (m.params.map (·.type))).map (⟨m, ·⟩)

def build (i : Interface) (impl : Implementation ι) (filter : MethodDescriptor → Bool) (data : Params) :
    Ledger × Except Fault (Endpoint ι) :=
  match (do
    validateInterface i
    let d ← Descriptor.of i
    validateImplementation d impl
    return d : Except Fault Descriptor) with
  | .error f => (.empty, .error f)
  | .ok d =>
    let endpoint := ⟨d, impl, bind d impl filter, none, data⟩
    if impl.instancing.sharesInstance then
      match instantiate impl data .empty with
      | (l, .error cause) => (l, .error (.invocation impl.name cause))
      | (l, .ok made) => (l, .ok { endpoint with shared := some made })
    else (.empty, .ok endpoint)

/-- The prototypes that can be called, in order. -/
def prototypes (e : Endpoint ι) : List String :=
  (e.bindings.map (·.method.prototype)).mergeSort fun a b => decide (a ≤ b)

def binding? (e : Endpoint ι) (prototype : String) : Option (Binding ι) :=
  e.bindings.find? fun b => b.method.prototype = prototype

/-! ## Arguments -/

/-- The value bound to one formal parameter. -/
def bindArgument (prototype : String) (p : ParameterDescriptor) (supplied : Option Json) :
    Except Fault Json :=
  match supplied.filter fun v => !v.isNull with
  | none => if p.required then .error (.missingParameter prototype p.name) else .ok .null
  | some raw =>
    if p.isPublic then .ok raw
    else
      match convert p.type raw with
      | .ok v => .ok v
      | .error cause => .error (.conversion prototype p.name cause)

/-- Binds the parameters in declaration order, a later one of the same name over an earlier one. -/
def bindArguments (prototype : String) (supplied : List (String × Json)) :
    List ParameterDescriptor → List (String × Json) → Except Fault (List (String × Json))
  | [], acc => .ok acc
  | p :: ps, acc =>
    match bindArgument prototype p (Keyed.find? p.name supplied) with
    | .error f => .error f
    | .ok v => bindArguments prototype supplied ps (Keyed.insert p.name v acc)

def arguments (m : MethodDescriptor) (call : MethodCall) : Except Fault Args :=
  (bindArguments m.prototype call.params m.params []).map (⟨·⟩)

/-! ## Calls -/

def obtain (e : Endpoint ι) (prototype : String) (l : Ledger) : Ledger × Except Fault (Numbered ι) :=
  match e.shared with
  | some made => (l, .ok made)
  | none =>
    match instantiate e.implementation e.data l with
    | (l, .error cause) => (l, .error (.invocation prototype cause))
    | (l, .ok made) => (l, .ok made)

def run (e : Endpoint ι) (l : Ledger) (ctx : CallContext) (call : MethodCall) :
    Ledger × Except Fault Json :=
  match e.binding? call.prototype with
  | none => (l, .error (.methodNotFound call.prototype))
  | some b =>
    match arguments b.method call with
    | .error f => (l, .error f)
    | .ok args =>
      match e.obtain call.prototype l with
      | (l, .error f) => (l, .error f)
      | (l, .ok made) =>
        let runs := l.invocations
        let l := l.note (.invoked made.number call.prototype)
        match b.serving.body runs made.value ctx args with
        | .error cause => (l, .error (.target call.prototype cause))
        | .ok v => (l, .ok v)

/-- Runs a call and measures it. -/
def call (e : Endpoint ι) (l : Ledger) (ctx : CallContext) (call : MethodCall) :
    Ledger × Except Fault Json :=
  let (l, outcome) := e.run l ctx call
  let name := e.descriptor.name
  let l := (l.measure (.called name)).measure (.callTimed name)
  match outcome with
  | .ok v => (l, .ok v)
  | .error f => (l.measure (.callFailed name), .error f)

end Endpoint
end Switchboard.Rpc
