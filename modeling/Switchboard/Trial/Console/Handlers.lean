import Switchboard.Container.Handlers
import Switchboard.Trial.Console.Basic

/-!
# Commands on contexts and registrations

Registering handlers with contexts, finding and removing them, and changing or
viewing single registrations.
-/

namespace Switchboard.Trial

/-- What a registration is made of. -/
structure RegistrationSpec where
  name : String
  cls : String
  label : Option String := none
  params : Params := .empty
  hook : Option String := none
  loadOnStartup : Bool := false

inductive ContextCommand where
  | accepts (context : String) (event : RequestEvent)
  | dispatch (component : String) (event : RequestEvent)
  | register (context : String) (spec : RegistrationSpec)
  | prepare (spec : RegistrationSpec)
  | addHandler (context : String) (spec : RegistrationSpec)
  | attach (context registration : String)
  | handler (context name : String)
  | requireHandler (context name : String)
  | removeHandler (context name : String)
  | label (context name label : String)
  | setDefault (context name : String)

inductive RegistrationCommand where
  | setParam (name value : String)
  | removeParam (name : String)
  | setUnavailable (value : Bool)
  | setLoadOnStartup (value : Bool)
  | setHook (hook : Option String)
  | isRestricted (param : String)
  | view

namespace Console

/-- Makes a registration and goes on with it. Its label is not bound before that. -/
def makeRegistration (c : Console) (spec : RegistrationSpec)
    (f : Console → RegistrationId → Console × Answer) : Console × Answer :=
  c.withClass spec.cls fun cls => c.withHook spec.hook fun hook =>
    match c.store.newRegistration spec.name cls with
    | .error fault => (c, .refused fault)
    | .ok g =>
      let (s, r) := c.store.addRegistration
        { g with params := spec.params, hook, loadOnStartup := spec.loadOnStartup }
      let (c, answer) := f { c with store := s } r
      (c.bindRegistration spec.label r, answer)

/-- Puts a registration on a desk and goes on with the one it replaced. -/
def insert (c : Console) (d : ComponentId) (r : RegistrationId) : Console × Option RegistrationId :=
  let (s, replaced) := c.store.insertRegistration d r
  ({ c with store := s }, replaced)

def attach (c : Console) (d : ComponentId) (r : RegistrationId) : Console × Answer :=
  let (c, replaced) := c.insert d r
  (c, .replaced (replaced.map c.namedRegistration))

def register (c : Console) (d : ComponentId) (r : RegistrationId) : Console × Answer :=
  let (c, _) := c.insert d r
  let isCurrent := c.store.handler? d (c.store.registration r).name = some r
  (c, .placed (c.store.registration r).context isCurrent)

def context (c : Console) : ContextCommand → Console × Answer
  | .accepts context event => c.withComponent context fun d => (c, .truth (c.store.accepts d event))
  | .dispatch component event => c.withComponent component fun d =>
    c.startOn d (TaskResult.dispatched <$> Container.dispatch d event)
  | .register context spec => c.withComponent context fun d =>
    c.makeRegistration spec fun c r => c.register d r
  | .prepare spec => c.makeRegistration spec fun c _ => (c, .nothing)
  | .addHandler context spec => c.withComponent context fun d =>
    c.makeRegistration spec fun c r => c.attach d r
  | .attach context registration => c.withComponent context fun d =>
    c.withRegistration registration fun r => c.attach d r
  | .handler context name => c.withComponent context fun d =>
    (c, .registration ((c.store.handler? d name).map c.namedRegistration))
  | .requireHandler context name => c.withComponent context fun d =>
    match c.store.requireHandler d name with
    | .ok r => (c, .registration (some (c.namedRegistration r)))
    | .error f => (c, .refused f)
  | .removeHandler context name => c.withComponent context fun d =>
    c.startOn d (TaskResult.removed <$> Container.removeHandler d name)
  | .label context name label => c.withComponent context fun d =>
    match c.store.handler? d name with
    | some r => (c.bindRegistration (some label) r, .found true)
    | none => (c, .found false)
  | .setDefault context name => c.withComponent context fun d =>
    match c.store.setDefault d name with
    | (s, .ok ()) => ({ c with store := s }, .ok)
    | (s, .error f) => ({ c with store := s }, .refused f)

def updateRegistration (c : Console) (r : RegistrationId) (f : Registration → Registration) : Console :=
  c.change (·.updateRegistration r f)

def registration (c : Console) (label : String) (command : RegistrationCommand) : Console × Answer :=
  c.withRegistration label fun r =>
    let g := c.store.registration r
    match command with
    | .setParam name value =>
      (c.updateRegistration r (·.setParam name value), .value (g.params.get? name))
    | .removeParam name => (c.updateRegistration r (·.removeParam name), .value (g.params.get? name))
    | .setUnavailable value =>
      (c.updateRegistration r fun g => { g with unavailable := value }, .nothing)
    | .setLoadOnStartup value =>
      (c.updateRegistration r fun g => { g with loadOnStartup := value }, .nothing)
    | .setHook hook => c.withHook hook fun h =>
      (c.updateRegistration r fun g => { g with hook := h }, .nothing)
    | .isRestricted param => (c, .truth (g.isRestricted param))
    | .view => (c.change fun s => (s.configure r).1, .portrait (.registration (viewRegistration c.store r)))

end Console
end Switchboard.Trial
