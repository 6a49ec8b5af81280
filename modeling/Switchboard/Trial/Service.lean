import Switchboard.Rpc.Endpoint

/-!
# Scripted services

Implementations whose methods do one simple thing each, to try the call engine
with. Instances are numbered by their factory run and may keep one injected
value. Reading an argument is strict: integers only from integers in range,
floats from any number, a character only from a text of one character.
-/

namespace Switchboard.Trial

open Rpc

/-- What an argument is read as. -/
inductive Shape where
  | long | int | double | bool | text | optionalText | optionalInt | char | texts | any
  deriving DecidableEq, Repr

namespace Shape

/-- An integer within the range of a scalar. -/
def scalar? (kind : Scalar) : Json → Option Json
  | .int n => if kind.range?.any fun (lo, hi) => lo ≤ n && n ≤ hi then some (.int n) else none
  | _ => none

def nullOr (read : Json → Option Json) : Json → Option Json
  | .null => some .null
  | v => read v

def text? : Json → Option Json
  | .string s => some (.string s)
  | _ => none

def read : Shape → Json → Option Json
  | long, v => scalar? .long v
  | int, v => scalar? .int v
  | double, .int n => some (.double (.ofInt n))
  | double, .double d => some (.double d)
  | double, _ => none
  | bool, v => v.bool?.map .bool
  | text, v => text? v
  | optionalText, v => nullOr text? v
  | optionalInt, v => nullOr (scalar? .int) v
  | char, .string s => if s.toList.length = 1 then some (.string s) else none
  | char, _ => none
  | texts, v => (v.list? text?).map .array
  | any, v => some v

end Shape

/-- An instance of a scripted service. -/
structure Servant where
  number : Nat
  injected : Option String
  deriving DecidableEq, Repr

inductive Body where
  | fail (message : String)
  | get (argument : String) (as : Shape)
  | raw (names : List String)
  | context
  | identity
  | constant (value : Json)
  | nothing

namespace Body

def run : Body → Servant → CallContext → Args → Except String Json
  | fail message, _, _, _ => .error message
  | get name shape, _, _, args =>
    match Keyed.find? name args.values with
    | none => .error ("no argument named '" ++ name ++ "'")
    | some v =>
      match shape.read v with
      | some w => .ok w
      | none => .error ("argument '" ++ name ++ "' does not deserialize")
  | raw names, _, _, args =>
    let bound := names.filterMap fun n => (Keyed.find? n args.values).map fun v => (n, v)
    .ok (.ofFields [("args", .ofFields bound), ("len", .int args.values.length),
      ("empty", .bool args.values.isEmpty)])
  | context, _, ctx, _ =>
    .ok (.ofFields [("caller", .ofText? ctx.caller), ("attributes", .ofTextFields ctx.attributes.entries)])
  | identity, self, _, _ =>
    .ok (.ofFields [("id", .int self.number), ("injected", .ofText? self.injected)])
  | constant v, _, _, _ => .ok v
  | nothing, _, _, _ => .ok .null

end Body

structure ServiceMethod where
  name : String
  params : List ValueType
  returns : ValueType
  isPublic : Bool
  body : Body

/-- The injection hook: fails, or keeps the value of a key. -/
structure Injection where
  key : Option String
  error : Option String

structure Service where
  name : String
  instancing : Instancing
  buildError : Option String
  needs : Option String
  inject : Option Injection
  methods : List ServiceMethod

namespace Service

def build (s : Service) (n : Nat) (data : Params) : Except String Servant :=
  match s.buildError with
  | some cause => .error cause
  | none =>
    match s.needs with
    | some key => if data.contains key then .ok ⟨n, none⟩ else .error ("missing " ++ key)
    | none => .ok ⟨n, none⟩

def Injection.run (i : Injection) (self : Servant) (data : Params) : Except String Servant :=
  match i.error with
  | some cause => .error cause
  | none => .ok { self with injected := i.key.bind data.get? }

def implementation (s : Service) : Implementation Servant where
  name := s.name
  instancing := s.instancing
  build := s.build
  inject := s.inject.map fun i _ self data => Injection.run i self data
  methods := s.methods.map fun m =>
    ⟨m.name, m.params, m.returns, m.isPublic, fun _ self ctx args => m.body.run self ctx args⟩

end Service

/-- The line a service writes for what it was asked to do. -/
def serviceLine? : Happening → Option String
  | .built n => some ("build " ++ toString n)
  | .injected n => some ("inject " ++ toString n)
  | .invoked .. => none

/-- The lines written since the ledger was `before`, oldest first. -/
def newServiceLines (before after : Ledger) : List String :=
  (after.happenings.take (after.happenings.length - before.happenings.length)).reverse.filterMap serviceLine?

end Switchboard.Trial
