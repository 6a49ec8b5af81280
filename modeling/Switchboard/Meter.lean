import Switchboard.Lifecycle.State

/-!
# Meters

What the container counts. A reading is the list of everything counted so far;
the value of a meter is how often it occurs. Every meter has a metric name, a
kind, a description and the labels that tell meters of one metric apart.
-/

namespace Switchboard

/-- Where the work of a handler can fail. -/
inductive Stage where
  | construct | init | process | destroy
  deriving DecidableEq, Repr

namespace Stage

def all : List Stage := [construct, init, process, destroy]

def name : Stage → String
  | construct => "construct"
  | init => "init"
  | process => "process"
  | destroy => "destroy"

def ofName? (s : String) : Option Stage := all.find? fun t => t.name = s

end Stage

inductive Metric where
  | dispatches | unhandled | handlersCreated | handlersFailed | transitions
  | calls | callFailures | callDuration
  deriving DecidableEq, Repr

namespace Metric

/-- In the order in which the metrics are announced. -/
def all : List Metric :=
  [dispatches, unhandled, handlersCreated, handlersFailed, transitions, calls, callFailures, callDuration]

def name : Metric → String
  | dispatches => "bindlet.dispatch.total"
  | unhandled => "bindlet.dispatch.unhandled"
  | handlersCreated => "bindlet.handler.created"
  | handlersFailed => "bindlet.handler.failed"
  | transitions => "bindlet.lifecycle.transitions"
  | calls => "bindlet.rpc.calls"
  | callFailures => "bindlet.rpc.failures"
  | callDuration => "bindlet.rpc.duration_seconds"

/-- Durations are sampled; everything else is counted. -/
def kind : Metric → String
  | callDuration => "histogram"
  | _ => "counter"

def description : Metric → String
  | dispatches => "Total number of events dispatched into a domain"
  | unhandled => "Total number of events no context accepted"
  | handlersCreated => "Total number of handler instances built"
  | handlersFailed => "Total number of handler construction or process failures"
  | transitions => "Total number of accepted lifecycle transitions"
  | calls => "Total number of RPC calls"
  | callFailures => "Total number of failed RPC calls"
  | callDuration => "Time taken to run an RPC call"

end Metric

inductive Meter where
  | dispatched (domain : String)
  | unhandled (domain : String)
  | created (handler : String)
  | failed (handler : String) (stage : Stage)
  | moved (component : String) (target : Lifecycle.State)
  | called (interface : String)
  | callFailed (interface : String)
  | callTimed (interface : String)
  deriving DecidableEq, Repr

namespace Meter

def metric : Meter → Metric
  | dispatched _ => .dispatches
  | unhandled _ => .unhandled
  | created _ => .handlersCreated
  | failed .. => .handlersFailed
  | moved .. => .transitions
  | called _ => .calls
  | callFailed _ => .callFailures
  | callTimed _ => .callDuration

/-- Labels in the order of their names. -/
def labels : Meter → List (String × String)
  | dispatched d | unhandled d => [("domain", d)]
  | created h => [("handler", h)]
  | failed h s => [("handler", h), ("stage", s.name)]
  | moved c s => [("component", c), ("to", s.name)]
  | called i | callFailed i | callTimed i => [("interface", i)]

/-- Texts in order, the first difference deciding. -/
def textsLe : List String → List String → Bool
  | [], _ => true
  | _ :: _, [] => false
  | a :: as, b :: bs => a < b || (a == b && textsLe as bs)

def le (a b : Meter) : Bool := textsLe (a.metric.name :: a.labels.map (·.2)) (b.metric.name :: b.labels.map (·.2))

end Meter

/-- Every meter of a reading once, by metric name and labels, with its value. -/
def Meter.totals (reading : List Meter) : List (Meter × Nat) :=
  (reading.eraseDups.mergeSort Meter.le).map fun m => (m, reading.count m)

end Switchboard
