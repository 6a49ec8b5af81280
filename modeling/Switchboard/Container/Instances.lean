import Switchboard.Container.Store

/-!
# Handler instances

How instances are obtained, given back and destroyed. A request counts as
active from the moment it asks for an instance. The shared instance of a
stateless class is built and initialized once, under the registration's lock;
tearing it down takes it out of its slot at once and destroys it when the last
request that holds it has given it back.
-/

namespace Switchboard.Container

namespace Store

/-- Builds an instance, as yet uninitialized. -/
def instantiate (s : Store) (r : RegistrationId) : Store × Except Fault InstanceId :=
  let g := s.registration r
  let n := s.runs g.cls .construct
  let s := s.note (.constructing g.cls n)
  match (s.classOf g.cls).construct n with
  | .error cause =>
    ((s.note (.constructed g.cls (.error cause))).measure (.failed g.name .construct),
      .error (.construction g.name cause))
  | .ok () =>
    let i := s.instances.size
    let s := { s with instances := s.instances.add { cls := g.cls, number := n } }
    ((s.note (.constructed g.cls (.ok i))).measure (.created g.name), .ok i)

/-- One more holder of an instance. -/
def hold (s : Store) (i : InstanceId) : Store :=
  s.updateInstance i fun t => { t with holders := t.holders + 1 }

/-- One holder less. -/
def drop (s : Store) (i : InstanceId) : Store :=
  s.updateInstance i fun t => { t with holders := t.holders - 1 }

def classOfInstance (s : Store) (i : InstanceId) : ClassId := ((s.instance? i).map (·.cls)).getD 0

/-- Whether two instances cannot be told apart. -/
def isSame (s : Store) (i j : InstanceId) : Bool :=
  let isPlain i := (s.classOf (s.classOfInstance i)).interchangeable
  i = j || (isPlain i && isPlain j)

def releaseSlot (s : Store) (r : RegistrationId) : Store := s.updateRegistration r (·.released)

/-- Drops an instance and gives its place back to a registration. -/
def giveBack (s : Store) (r : RegistrationId) (i : InstanceId) : Store := (s.drop i).releaseSlot r

def setLocked (s : Store) (r : RegistrationId) (locked : Bool) : Store :=
  s.updateRegistration r fun g => { g with locked }

/-- Another holder of the shared instance, if there is one. -/
def share (s : Store) (r : RegistrationId) : Store × Option InstanceId :=
  match (s.registration r).shared with
  | some i => (s.hold i, some i)
  | none => (s, none)

/-- Puts a new instance into the slot, unlocks it and holds the instance once more. -/
def publish (s : Store) (r : RegistrationId) (i : InstanceId) : Store :=
  (s.updateRegistration r fun g => { g with shared := some i, locked := false }).hold i

/-- Empties the slot. -/
def takeShared (s : Store) (r : RegistrationId) : Store × Option InstanceId :=
  (s.updateRegistration r fun g => { g with shared := none }, (s.registration r).shared)

def isUnlocked (s : Store) (r : RegistrationId) : Bool := !(s.registration r).locked

/-- Nobody else holds the instance, or no request is left that could give it back. -/
def isQuiet (s : Store) (r : RegistrationId) (i : InstanceId) : Bool :=
  s.holders i = 1 || (s.registration r).active = 0

end Store

/-! ## The stages of a handler -/

/-- What the `init` of an instance comes to. -/
def runInit (r : RegistrationId) (i : InstanceId) (cls : ClassId) : Work (Except String Unit) := do
  .yield .turn
  .act fun s =>
    let config := ((s.instance? i).bind (·.config)).getD (s.registration r).currentConfig
    let outcome := (s.classOf cls).init (s.runs cls .init) config
    (s.note (.initialized cls i outcome), outcome)

/-- Initializes an instance with the registration's current configuration. -/
def setUp (r : RegistrationId) (i : InstanceId) : Work (Except String Unit) := do
  let cls ← .act fun s =>
    let cls := s.classOfInstance i
    let (s, config) := s.configure r
    ((s.updateInstance i fun t => { t with config := some config }).note (.initializing cls i config), cls)
  runInit r i cls

/-- What the `destroy` of an instance comes to; a failure is of no consequence. -/
def runDestroy (i : InstanceId) (cls : ClassId) : Work Unit := do
  .yield .turn
  .modify fun s => s.note (.destroyed cls i ((s.classOf cls).destroy (s.runs cls .destroy)))

/-- Destroys an instance. -/
def destroy (i : InstanceId) : Work Unit := do
  let cls ← .act fun s => (s.note (.destroying (s.classOfInstance i) i), s.classOfInstance i)
  runDestroy i cls

/-- Waits for a permit of a gate. -/
def passGate (gate : String) : Work Unit := do
  let ticket ← .act fun s => s.takeTicket gate
  .waitUntil (fun s => ticket < (s.gate gate).granted) (fun _ => .permit gate ticket)

/-- Passes a call on to an endpoint. Only the two payloads of remote calls are understood. -/
def Store.forward (s : Store) (endpoint : Nat) (request response : Payload) :
    Store × Payload × Except String Unit :=
  match request, response with
  | .call call context, .outcome _ =>
    match s.remotes.get? endpoint with
    | none => (s, response, .ok ())
    | some remote =>
      let (ledger, result) := remote.run remote.ledger context call
      ({ s with remotes := s.remotes.update endpoint fun t => { t with ledger } },
        .outcome (some result), .ok ())
  | .call .., response =>
    (s, response,
      .error ("expected " ++ Payload.outcomeTag.name ++ ", got " ++ response.typeTag.name))
  | request, response =>
    (s, response, .error ("expected " ++ Payload.callTag.name ++ ", got " ++ request.typeTag.name))

/-- The response of an instance to a request, and the outcome. -/
def Store.perform (s : Store) (cls : ClassId) (i : InstanceId) (request response : Payload) :
    Store × Payload × Except String Unit :=
  match (s.classOf cls).duty with
  | .answer reply =>
    let (response, outcome) :=
      reply (s.runs cls .process) ((s.instance? i).bind (·.config)) request response
    (s, response, outcome)
  | .remote endpoint => s.forward endpoint request response

/-- Waits as long as handlers of a class take. -/
def linger (cls : ClassId) : Work Unit := do
  match ((← .get).classOf cls).gate with
  | some gate => passGate gate
  | none => .yield .turn

/-- Runs a request through an instance. -/
def process (i : InstanceId) (e : RequestEvent) : Work (RequestEvent × Except String Unit) := do
  let cls ← .act fun s => (s.note (.processing (s.classOfInstance i) i), s.classOfInstance i)
  linger cls
  .act fun s =>
    let (s, response, outcome) := s.perform cls i e.request e.response
    (s.note (.processed cls i outcome), { e with response }, outcome)

/-! ## Obtaining and giving back -/

/-- Unlocks the slot after an `init`, with the instance in it if that went well. -/
def place (r : RegistrationId) (i : InstanceId) : Except String Unit → Work (Except Fault InstanceId)
  | .error cause => .act fun s =>
    let name := (s.registration r).name
    (((s.drop i).setLocked r false).measure (.failed name .init), .error (.construction name cause))
  | .ok () => do
    .modify (·.publish r i)
    return .ok i

/-- Builds and initializes the shared instance; the slot is locked. -/
def buildShared (r : RegistrationId) : Work (Except Fault InstanceId) := do
  match ← .act (·.instantiate r) with
  | .error f =>
    .modify (·.setLocked r false)
    return .error f
  | .ok i =>
    let outcome ← setUp r i
    place r i outcome

/-- The shared instance, built when there is none once the slot can be locked. -/
def shareOrBuild (r : RegistrationId) : Work (Except Fault InstanceId) := do
  .waitUntil (·.isUnlocked r) (fun _ => .unlock r)
  match ← .act (·.share r) with
  | some i => return .ok i
  | none =>
    .modify (·.setLocked r true)
    buildShared r

/-- The shared instance, built when there is none. -/
def obtainShared (r : RegistrationId) : Work (Except Fault InstanceId) := do
  .waitUntil (·.isUnlocked r) (fun _ => .unlock r)
  match ← .act (·.share r) with
  | some i => return .ok i
  | none => shareOrBuild r

/-- Hands out what was obtained; a request that got nothing gives up its place. -/
def deliver (r : RegistrationId) : Except Fault InstanceId → Work (Except Fault InstanceId)
  | .ok i => return .ok i
  | .error f => do
    .modify (·.releaseSlot r)
    return .error f

/-- Hands out an instance by the registration's policy. -/
def createHandler (r : RegistrationId) : Work (Except Fault InstanceId) := do
  let shares ← .act fun s =>
    (s.updateRegistration r fun g => { g with active := g.active + 1 },
      (s.registration r).instancing.sharesInstance)
  let got ← (if shares then obtainShared r else .act (·.instantiate r))
  deliver r got

/-- Builds the shared instance ahead of the first request. -/
def preload (r : RegistrationId) : Work (Except Fault Unit) := do
  if ((← .get).registration r).instancing.sharesInstance then
    match ← createHandler r with
    | .error f => return .error f
    | .ok i =>
      .modify (·.giveBack r i)
      return .ok ()
  else return .ok ()

/-- Destroys an instance that was taken out of its slot, once nobody else holds it. -/
def retire (r : RegistrationId) (i : InstanceId) : Work Unit := do
  .waitUntil (·.isQuiet r i) (fun s => .release r (s.registration r).releases)
  if (← .get).holders i = 1 then destroy i
  .modify (·.drop i)

/-- Takes the shared instance away and retires it. -/
def teardown (r : RegistrationId) : Work Unit := do
  .waitUntil (·.isUnlocked r) (fun _ => .unlock r)
  match ← .act (·.takeShared r) with
  | none => return ()
  | some i => retire r i

def teardownAll : List RegistrationId → Work Unit
  | [] => return ()
  | r :: rs => do
    teardown r
    teardownAll rs

end Switchboard.Container
