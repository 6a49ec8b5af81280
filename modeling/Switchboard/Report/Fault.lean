import Switchboard.Container.Dispatch
import Switchboard.Json.Record

/-!
# Reports of faults and outcomes

Faults as JSON records: their kind, their text, and what else tells faults of
one sort apart. An outcome reports its value or its fault.
-/

namespace Switchboard

/-- The fault underneath, if there is one. -/
def causeFields (cause : Option String) : List (String × Json) :=
  (cause.map fun c => ("source", Json.string c)).toList

def Lifecycle.Fault.report (f : Lifecycle.Fault) : Json :=
  match f with
  | .denied c .. => .ofFields [("error", .string "TransitionDenied"), ("message", .string f.message),
      ("component", .string c), ("denied", .bool true)]
  | .hookFailed c _ cause => .ofFields [("error", .string "HookFailed"), ("message", .string f.message),
      ("component", .string c), ("denied", .bool false), ("source", .string cause)]

def Rpc.ConversionFault.report (f : Rpc.ConversionFault) : Json :=
  .ofFields [("error", .string f.kind), ("message", .string f.message)]

def Rpc.Fault.conversionFields : Rpc.Fault → List (String × Json)
  | .conversion _ _ cause => [("conversion", .string cause.kind)]
  | _ => []

def Rpc.Fault.report (f : Rpc.Fault) : Json :=
  .ofFields ([("error", .string f.kind), ("message", .string f.message),
    ("target_failure", .bool f.isTargetFailure)] ++ f.conversionFields ++ causeFields f.cause?)

/-- A lifecycle fault reports as itself. -/
def Container.Fault.report : Container.Fault → Json
  | .lifecycle f => f.report
  | f => .ofFields ([("error", .string f.kind), ("message", .string f.message),
      ("handler_failure", .bool f.isHandlerFailure)] ++ causeFields f.cause?)

/-! ## Outcomes -/

def reportOutcome {ε α : Type} (fault : ε → Json) (value : α → Json) : Except ε α → Json
  | .ok a => value a
  | .error e => fault e

/-- The result of a call, as far as there is one. -/
def reportResult : Option (Except Rpc.Fault Json) → Json
  | none => .ofFields [("value", .null), ("kind", .null), ("error", .null)]
  | some (.ok v) => .ofFields [("value", v), ("kind", .null), ("error", .null)]
  | some (.error f) =>
    .ofFields [("value", .null), ("kind", .string f.kind), ("error", f.report)]

def Payload.report : Payload → Json
  | .outcome result => reportResult result
  | p => .ofText? p.words?

def failureFields : Except Container.Fault Unit → List (String × Json)
  | .ok () => []
  | .error f => [("error", f.report)]

def reportHandled (h : Container.Handled) : Json :=
  .ofFields ([("handled", .bool h.1.handled), ("handler", .ofText? h.1.handler),
    ("types", .ofTexts [h.1.request.typeTag.name, h.1.response.typeTag.name]),
    ("response", h.1.response.report)] ++ failureFields h.2)

end Switchboard
