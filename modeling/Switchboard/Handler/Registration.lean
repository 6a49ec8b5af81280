import Switchboard.Handler.Class

/-!
# Handler registrations

The record that a context keeps for each of its handlers: the class, the init
parameters, the flags and the hook, and what is in use at the moment. The
configuration handed to new handlers is built on demand and kept until a
parameter or the context changes; snapshots are numbered as they are built.
-/

namespace Switchboard

abbrev ClassId := Nat
abbrev HookId := Nat
abbrev InstanceId := Nat
abbrev RegistrationId := Nat

/-- A configuration that was handed out, with its number. -/
structure Snapshot where
  serial : Nat
  config : HandlerConfig
  deriving DecidableEq

structure Registration where
  name : String
  cls : ClassId
  instancing : Instancing
  params : Params := .empty
  context : Option String := none
  /-- The snapshot that is still current, if there is one. -/
  cached : Option Snapshot := none
  snapshots : Nat := 0
  unavailable : Bool := false
  loadOnStartup : Bool := false
  hook : Option HookId := none
  /-- The instance shared by all requests, once it is initialized. -/
  shared : Option InstanceId := none
  /-- Somebody is building the shared instance. -/
  locked : Bool := false
  /-- Requests that hold an instance or are about to. -/
  active : Nat := 0
  /-- How often an instance has been given back. -/
  releases : Nat := 0

namespace Registration

instance : Inhabited Registration := ⟨{ name := "", cls := 0, instancing := .stateful }⟩

/-- What a registration is made with and keeps. -/
def policy (g : Registration) : String × ClassId × Instancing := (g.name, g.cls, g.instancing)

/-- What decides who may reach the handler. -/
def guard (g : Registration) : String × Params × Option HookId := (g.name, g.params, g.hook)

/-- The registration as it is made and set, without what is in use of it. -/
def charter (g : Registration) : Registration :=
  { g with cached := none, snapshots := 0, shared := none, locked := false, active := 0, releases := 0 }

theorem policy_eq_of_charter_eq {g g' : Registration} (h : g.charter = g'.charter) : g.policy = g'.policy :=
  (congrArg policy h :)

/-- The registration as far as its configuration goes. -/
def dossier (g : Registration) : Registration where
  name := g.name
  cls := 0
  instancing := .stateful
  params := g.params
  context := g.context
  cached := g.cached
  snapshots := g.snapshots

/-! ## Configuration -/

def invalidate (g : Registration) : Registration := { g with cached := none }

def attach (g : Registration) (context : String) : Registration :=
  { g with context := some context }.invalidate

def setParam (g : Registration) (name value : String) : Registration :=
  { g with params := g.params.insert name value }.invalidate

def removeParam (g : Registration) (name : String) : Registration :=
  { g with params := g.params.erase name }.invalidate

/-- What a handler made now is to be initialized with. -/
def currentConfig (g : Registration) : HandlerConfig := ⟨g.name, g.context.getD "", g.params⟩

/-- The current snapshot, built when there is none. -/
def config (g : Registration) : Registration × Snapshot :=
  match g.cached with
  | some snapshot => (g, snapshot)
  | none =>
    let snapshot := ⟨g.snapshots, g.currentConfig⟩
    ({ g with cached := some snapshot, snapshots := g.snapshots + 1 }, snapshot)

theorem config_of_some {g : Registration} {snapshot : Snapshot} (h : g.cached = some snapshot) :
    g.config = (g, snapshot) := by rw [config, h]

theorem config_of_none {g : Registration} (h : g.cached = none) :
    g.config = ({ g with cached := some ⟨g.snapshots, g.currentConfig⟩, snapshots := g.snapshots + 1 },
      ⟨g.snapshots, g.currentConfig⟩) := by rw [config, h]

/-- What was handed out is kept; apart from that a registration stays as it is. -/
theorem fst_config (g : Registration) :
    g.config.1 = { g with cached := some g.config.2, snapshots := g.config.1.snapshots } := by
  cases h : g.cached with
  | none => rw [config_of_none h]
  | some snapshot => rw [config_of_some h, ← h]

@[simp] theorem charter_config (g : Registration) : g.config.1.charter = g.charter := by
  rw [fst_config]
  rfl

@[simp] theorem shared_config (g : Registration) : g.config.1.shared = g.shared := by
  rw [fst_config]

@[simp] theorem cached_config (g : Registration) : g.config.1.cached = some g.config.2 := by
  rw [fst_config]

/-! ## Flags -/

/-- Whether the parameter of the given name marks the handler as restricted. -/
def isRestricted (g : Registration) (param : String) : Bool := (g.params.bool? param).getD false

/-- Takes back one instance; a return without an instance in use counts for nothing. -/
def released (g : Registration) : Registration :=
  if 0 < g.active then { g with active := g.active - 1, releases := g.releases + 1 } else g

@[simp] theorem charter_released (g : Registration) : g.released.charter = g.charter := by
  unfold released
  split <;> rfl

@[simp] theorem dossier_released (g : Registration) : g.released.dossier = g.dossier := by
  unfold released
  split <;> rfl

@[simp] theorem shared_released (g : Registration) : g.released.shared = g.shared := by
  unfold released
  split <;> rfl

end Registration
end Switchboard
