import Switchboard.Container.Instances

/-!
# Handlers of a context

Registering and removing handlers. A registration that replaces another one of
its name retires that one until the context stops. The default handler has to be
registered when it is set; removing it later leaves the default as it is.
-/

namespace Switchboard.Container

namespace Store

/-- Makes the registration of a class. -/
def newRegistration (s : Store) (name : String) (cls : ClassId) : Except Fault Registration :=
  let c := s.classOf cls
  if c.isInvalid then .error (.notRecyclable c.typeName)
  else .ok { name, cls, instancing := c.instancing }

theorem newRegistration_eq_ok_iff {s : Store} {name : String} {cls : ClassId} {g : Registration} :
    s.newRegistration name cls = .ok g ↔ (s.classOf cls).isInvalid = false ∧
      g = { name, cls, instancing := (s.classOf cls).instancing } := by
  unfold newRegistration
  dsimp only
  split
  next h => simp [h]
  next h => simp [h, eq_comm]

/-- Puts a registration on the desk of a context and gives the one it replaced. -/
def insertRegistration (s : Store) (c : ComponentId) (r : RegistrationId) :
    Store × Option RegistrationId :=
  let name := (s.registration r).name
  let replaced := (s.desk? c).bind fun d => d.handlers.find? name
  ((s.updateRegistration r (·.attach (s.name c))).updateDesk c (·.insert name r), replaced)

def handler? (s : Store) (c : ComponentId) (name : String) : Option RegistrationId :=
  (s.desk? c).bind fun d => d.handlers.find? name

def requireHandler (s : Store) (c : ComponentId) (name : String) : Except Fault RegistrationId :=
  match s.handler? c name with
  | some r => .ok r
  | none => .error (.handlerNotFound name (s.name c))

/-- Sends events that name no handler to a registered one. -/
def setDefault (s : Store) (c : ComponentId) (name : String) : Store × Except Fault Unit :=
  match s.requireHandler c name with
  | .error f => (s, .error f)
  | .ok _ => (s.updateDesk c fun d => { d with defaultHandler := some name }, .ok ())

/-! ## The desk as a whole -/

/-- The registrations of a context, in the order in which it goes through them. -/
def handlers (s : Store) (c : ComponentId) : List RegistrationId :=
  s.walk.order (((s.desk? c).map fun d => Directory.values d.handlers).getD [])

theorem mem_handlers {s : Store} {c : ComponentId} {d : Desk} (h : s.desk? c = some d) {r : RegistrationId} :
    r ∈ s.handlers c ↔ r ∈ Directory.values d.handlers := by
  rw [handlers, Directory.Walk.mem_order, h, Option.map_some, Option.getD_some]

/-- Takes the replaced registrations off the desk. -/
def takeRetired (s : Store) (c : ComponentId) : Store × List RegistrationId :=
  (s.updateDesk c fun d => { d with retired := [] }, ((s.desk? c).map (·.retired)).getD [])

/-- Takes all registrations off the desk. -/
def takeHandlers (s : Store) (c : ComponentId) : Store × List RegistrationId :=
  (s.updateDesk c fun d => { d with handlers := [] }, s.handlers c)

end Store

/-- Takes the registration of a name off the desk and tears it down. -/
def removeHandler (c : ComponentId) (name : String) : Work (Option RegistrationId) := do
  match (← .get).handler? c name with
  | none => return none
  | some r =>
    .modify (·.updateDesk c fun d => { d with handlers := d.handlers.erase name })
    teardown r
    return some r

end Switchboard.Container
