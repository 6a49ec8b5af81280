import Switchboard.Container.Instances

/-!
# Dispatch

The way of an event from a domain to a handler. A domain and a server offer it
to their children until one has handled it; a service hands it to the first of
its contexts that accepts it and to no other; a context finds the registration,
asks its hook when the handler is restricted, and runs it. An event that nobody
takes comes back unhandled, which is no fault.
-/

namespace Switchboard.Container

abbrev Handled := RequestEvent × Except Fault Unit

/-- A context that has failed or is on its way out accepts nothing. -/
def Store.accepts (s : Store) (c : ComponentId) (e : RequestEvent) : Bool :=
  !(s.state c matches .failed | .destroying | .destroyed) && (s.desk? c).any (·.fits e)

/-! ## Within a context -/

/-- Has a hook answer an event that it did not admit. What it gives back goes on as it is. -/
def refuse (h : HookId) (asked : Nat) (handler : String) (e : RequestEvent) :
    Work (RequestEvent × Except Fault Bool) := do
  let (e, outcome) ← .act fun s =>
    (s.note (.refused h handler), (s.hooks.getD h default).refuse asked handler e)
  .yield .turn
  match outcome with
  | .ok () => return (e, .ok false)
  | .error cause => return (e, .error (.handler handler cause))

/-- Whether a restricted handler may run, with the event as refused or the fault of refusing. -/
def consult (g : Registration) (e : RequestEvent) : Work (RequestEvent × Except Fault Bool) := do
  match g.hook with
  | none => return (e, .ok false)
  | some h =>
    let (asked, admitted) ← .act fun s =>
      let asked := s.questions h
      let admitted := (s.hooks.getD h default).admits asked g.name e
      (s.note (.asked h g.name admitted), asked, admitted)
    .yield .turn
    if admitted then return (e, .ok true)
    else refuse h asked g.name { e with handled := true }

/-- Initializes an instance that serves one request only. -/
def prepare (r : RegistrationId) (i : InstanceId) (shares : Bool) : Work (Except Fault Unit) := do
  if shares then return .ok ()
  match ← setUp r i with
  | .ok () => return .ok ()
  | .error cause => .act fun s =>
    let name := (s.registration r).name
    (s.measure (.failed name .init), .error (.construction name cause))

/-- Gives an instance back after a request and tells how the request went. -/
def finish (r : RegistrationId) (i : InstanceId) (handler : String) (e : RequestEvent)
    (outcome : Except String Unit) : Work Handled := do
  .modify (·.giveBack r i)
  match outcome with
  | .ok () => return (e, .ok ())
  | .error cause =>
    .modify (·.measure (.failed handler .process))
    return (e, .error (.handler handler cause))

/-- Runs an event through an instance of its own or the shared one, and gives that back. -/
def invoke (r : RegistrationId) (e : RequestEvent) : Work Handled := do
  match ← createHandler r with
  | .error f => return (e, .error f)
  | .ok i =>
    let g := (← .get).registration r
    let shares := g.instancing.sharesInstance
    match ← prepare r i shares with
    | .error f =>
      .modify (·.giveBack r i)
      return (e, .error f)
    | .ok () =>
      let (e, outcome) ← process i e
      if !shares then destroy i
      finish r i g.name e outcome

/-- Marks the event as handled and runs it. -/
def serve (r : RegistrationId) (e : RequestEvent) : Work Handled := invoke r { e with handled := true }

def dispatchContext (c : ComponentId) (e : RequestEvent) : Work Handled := do
  let s ← .get
  match s.desk? c with
  | none => return (e, .ok ())
  | some desk =>
    match desk.resolve e with
    | none => return (e, .ok ())
    | some r =>
      let g := s.registration r
      if g.unavailable then return (e, .ok ())
      else if g.isRestricted desk.settings.restrictedParam then
        match ← consult g e with
        | (e, .error f) => return (e, .error f)
        | (e, .ok false) => return (e, .ok ())
        | (e, .ok true) => serve r e
      else serve r e

/-! ## Through the tree -/

/-- Offers an event to components until one has handled it or failed; tells whether one has handled it. -/
def offer (dispatch : ComponentId → RequestEvent → Work Handled) :
    List ComponentId → RequestEvent → Work (RequestEvent × Except Fault Bool)
  | [], e => return (e, .ok false)
  | c :: cs, e => do
    match ← dispatch c e with
    | (e, .error f) => return (e, .error f)
    | (e, .ok ()) => if e.handled then return (e, .ok true) else offer dispatch cs e

/-- The first context of a service that accepts an event. -/
def Store.acceptor? (s : Store) (service : ComponentId) (e : RequestEvent) : Option ComponentId :=
  (s.childIds service).find? fun c => s.accepts c e

def dispatchService (c : ComponentId) (e : RequestEvent) : Work Handled := do
  match (← .get).acceptor? c e with
  | some d => dispatchContext d e
  | none => return (e, .ok ())

def dispatchServer (c : ComponentId) (e : RequestEvent) : Work Handled := do
  let (e, outcome) ← offer dispatchService ((← .get).childIds c) e
  return (e, outcome.map fun _ => ())

/-- Counts the event, and counts it again if no server handles it. -/
def dispatchDomain (c : ComponentId) (e : RequestEvent) : Work Handled := do
  .modify fun s => s.measure (.dispatched (s.name c))
  match ← offer dispatchServer ((← .get).childIds c) e with
  | (e, .error f) => return (e, .error f)
  | (e, .ok true) => return (e, .ok ())
  | (e, .ok false) =>
    .modify fun s => s.measure (.unhandled (s.name c))
    return (e, .ok ())

def dispatch (c : ComponentId) (e : RequestEvent) : Work Handled := do
  match ((← .get).component c).kind with
  | .domain _ => dispatchDomain c e
  | .server => dispatchServer c e
  | .service => dispatchService c e
  | .context _ => dispatchContext c e

end Switchboard.Container
