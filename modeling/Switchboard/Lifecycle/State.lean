/-!
# Lifecycle states

The twelve states of a component, the moves between them and the four phases
that drive it. `State.successors` lists the moves that are accepted; asking for
the current state is ignored, except in `mustDestroy`, which denies it; every
other request is denied.
-/

namespace Switchboard.Lifecycle

inductive State where
  | new | initializing | initialized | starting | started | stopping | stopped
  | destroying | destroyed | failed | mustStop | mustDestroy
  deriving DecidableEq, Repr, Inhabited

inductive Group where
  | new | init | start | stop | destroy | failed | mustStop | mustDestroy
  deriving DecidableEq, Repr

inductive Transition where
  | deny | accept | ignore
  deriving DecidableEq, Repr

namespace State

def all : List State :=
  [new, initializing, initialized, starting, started, stopping, stopped, destroying, destroyed,
    failed, mustStop, mustDestroy]

def name : State → String
  | new => "NEW"
  | initializing => "INITIALIZING"
  | initialized => "INITIALIZED"
  | starting => "STARTING"
  | started => "STARTED"
  | stopping => "STOPPING"
  | stopped => "STOPPED"
  | destroying => "DESTROYING"
  | destroyed => "DESTROYED"
  | failed => "FAILED"
  | mustStop => "MUST_STOP"
  | mustDestroy => "MUST_DESTROY"

def ofName? (s : String) : Option State := all.find? fun t => t.name = s

/-- The position of the state in `all`. -/
def index (s : State) : Nat := all.idxOf s

def group : State → Group
  | new => .new
  | initializing | initialized => .init
  | starting | started => .start
  | stopping | stopped => .stop
  | destroying | destroyed => .destroy
  | failed => .failed
  | mustStop => .mustStop
  | mustDestroy => .mustDestroy

/-- Ordinary operations may run. -/
def isAvailable (s : State) : Bool := s matches starting | started | mustStop

/-- No phase is under way. -/
def isSettled (s : State) : Bool :=
  s matches new | initialized | started | stopped | destroyed | failed

/-- The states a request may move to. -/
def successors : State → List State
  | new => [initializing, initialized, started, stopping, stopped, destroying, destroyed, failed,
      mustStop, mustDestroy]
  | initializing => [initialized, failed]
  | initialized => [starting, started, destroying, destroyed, failed, mustDestroy]
  | starting => [started, failed]
  | started => [stopping, stopped, failed]
  | stopping => [stopped, failed]
  | stopped => [starting, started, destroying, destroyed, failed, mustDestroy]
  | destroying => [destroyed, failed]
  | destroyed => [initializing, initialized]
  | failed => [destroying, destroyed, mustDestroy]
  | mustStop => [stopping, stopped, failed]
  | mustDestroy => [failed]

end State

def transition (source target : State) : Transition :=
  if target ∈ source.successors then .accept
  else if source = target ∧ source ≠ .mustDestroy then .ignore
  else .deny

def Group.name : Group → String
  | new => "New"
  | init => "Init"
  | start => "Start"
  | stop => "Stop"
  | destroy => "Destroy"
  | failed => "Failed"
  | mustStop => "MustStop"
  | mustDestroy => "MustDestroy"

def Transition.name : Transition → String
  | deny => "Deny"
  | accept => "Accept"
  | ignore => "Ignore"

inductive Phase where
  | init | start | stop | destroy
  deriving DecidableEq, Repr

namespace Phase

def all : List Phase := [init, start, stop, destroy]

def name : Phase → String
  | init => "init"
  | start => "start"
  | stop => "stop"
  | destroy => "destroy"

def ofName? (s : String) : Option Phase := all.find? fun p => p.name = s

/-- The state while the phase's hook runs. -/
def transient : Phase → State
  | init => .initializing
  | start => .starting
  | stop => .stopping
  | destroy => .destroying

/-- The state after the hook succeeded. -/
def settled : Phase → State
  | init => .initialized
  | start => .started
  | stop => .stopped
  | destroy => .destroyed

end Phase

/-! ## The move table -/

theorem State.mem_all (s : State) : s ∈ State.all := by cases s <;> decide

theorem State.ofName?_name (s : State) : State.ofName? s.name = some s := by cases s <;> decide

theorem transition_eq_accept_iff {s t : State} : transition s t = .accept ↔ t ∈ s.successors := by
  unfold transition
  split <;> simp_all
  split <;> simp

end Switchboard.Lifecycle
