import Switchboard.Proofs.Sharing

/-!
# Tasks on one registration

Requests and teardowns of one registration, taking turns. A task runs from one
await to the next without interruption; at an await it goes on where it may, and
parks on a signal where it may not, to look again when the signal is ready. The
lemmas say what each stretch of a request and of a teardown comes to.
-/

namespace Switchboard.Activity

variable {σ ω α β : Type}

/-- Runs up to the next await, or to the end. -/
def stretch : Activity σ ω α → σ → σ × Activity σ ω α
  | done a, s => (s, done a)
  | read next, s => (next s).stretch s
  | write s next, _ => next.stretch s
  | await pass wake next, s => (s, await pass wake next)

/-- Goes on from an await through one stretch, or parks there on a signal. -/
def resume : Activity σ ω α → σ → σ × Option ω × Activity σ ω α
  | await pass wake next, s =>
    if pass s then ((next.stretch s).1, none, (next.stretch s).2)
    else (s, some (wake s), await pass wake next)
  | x, s => (s, none, x)

end Switchboard.Activity

namespace Switchboard.Container

open Activity

/-! ## What a registration has in use -/

/-- The slot and its lock, the requests at work, and how many are over. -/
structure Usage where
  shared : Option InstanceId
  locked : Bool
  active : Nat
  releases : Nat

namespace Store

variable {s : Store} {r : RegistrationId}

def usage (s : Store) (r : RegistrationId) : Usage :=
  ⟨(s.registration r).shared, (s.registration r).locked, (s.registration r).active,
    (s.registration r).releases⟩

theorem registration_update_self (hr : r < s.registrations.size)
    (f : Registration → Registration) :
    (s.updateRegistration r f).registration r = f (s.registration r) := by
  rw [registration_updateRegistration, if_pos ⟨rfl, hr⟩]

theorem usage_activate (hr : r < s.registrations.size) :
    (s.updateRegistration r fun g => { g with active := g.active + 1 }).usage r =
      { s.usage r with active := (s.usage r).active + 1 } := by
  rw [usage, registration_update_self hr]
  rfl

theorem usage_setLocked (hr : r < s.registrations.size) (locked : Bool) :
    (s.setLocked r locked).usage r = { s.usage r with locked } := by
  rw [usage, setLocked, registration_update_self hr]
  rfl

theorem size_setLocked (s : Store) (r : RegistrationId) (locked : Bool) :
    (s.setLocked r locked).registrations.size = s.registrations.size := Roster.size_update ..

theorem usage_publish (hr : r < s.registrations.size) (i : InstanceId) :
    (s.publish r i).usage r = { s.usage r with shared := some i, locked := false } := by
  show usage (s.updateRegistration r _) r = _
  rw [usage, registration_update_self hr]
  rfl

theorem usage_takeShared (hr : r < s.registrations.size) :
    (s.takeShared r).1.usage r = { s.usage r with shared := none } := by
  rw [usage, takeShared, registration_update_self hr]
  rfl

theorem usage_releaseSlot (hr : r < s.registrations.size) (ha : 0 < (s.usage r).active) :
    (s.releaseSlot r).usage r =
      { s.usage r with active := (s.usage r).active - 1, releases := (s.usage r).releases + 1 } := by
  have ha' : 0 < (s.registration r).active := ha
  rw [usage, releaseSlot, registration_update_self hr, Registration.released, if_pos ha']
  rfl

theorem usage_instantiate (s : Store) (r : RegistrationId) :
    (s.instantiate r).1.usage r = s.usage r := by
  unfold instantiate
  dsimp only
  split <;> rfl

theorem usage_configure (s : Store) (r : RegistrationId) :
    (s.configure r).1.usage r = s.usage r := by
  show usage (s.updateRegistration r fun _ => (s.registration r).config.1) r = _
  rw [usage, registration_updateRegistration]
  split
  · rw [Registration.fst_config]
    rfl
  · rfl

end Store

/-! ## Stretches -/

section

variable {s : Store} {r : RegistrationId} {i : InstanceId}

theorem stretch_createHandler (h : (s.registration r).instancing.sharesInstance = true) :
    (createHandler r).stretch s =
      (s.updateRegistration r fun g => { g with active := g.active + 1 },
        obtainShared r >>= deliver r) := by
  show Activity.stretch ((if (s.registration r).instancing.sharesInstance then obtainShared r
    else .act (·.instantiate r)) >>= deliver r) _ = _
  rw [h]
  rfl

/-- What a request does once it may look into the slot. -/
theorem resume_obtainShared (hu : s.isUnlocked r = true) :
    (obtainShared r >>= deliver r).resume s =
      match (s.share r).2 with
      | some i => ((s.share r).1, none, .done (.ok i))
      | none => ((s.share r).1, none, shareOrBuild r >>= deliver r) := by
  have h : (obtainShared r >>= deliver r).resume s =
      if s.isUnlocked r then
        let y := ((match (s.share r).2 with
          | some i => return .ok i
          | none => shareOrBuild r) >>= deliver r).stretch (s.share r).1
        (y.1, none, y.2)
      else (s, some (.unlock r), obtainShared r >>= deliver r) := rfl
  rw [h, if_pos hu]
  cases (s.share r).2 <;> rfl

/-- The first stretch of building the shared instance, up to its `init`. -/
def Store.begin (s : Store) (r : RegistrationId) (i : InstanceId) : Store :=
  ((s.configure r).1.updateInstance i fun t => { t with config := some (s.configure r).2 }).note
    (.initializing (s.classOfInstance i) i (s.configure r).2)

theorem Store.quietly_begin (s : Store) (r : RegistrationId) (i : InstanceId) :
    s.Quietly (s.begin r i) :=
  ((s.quietly_configure r).trans (quietly_updateInstance _ i _)).trans (quietly_note ⟨rfl, rfl⟩ _)

theorem Store.usage_begin (s : Store) (r : RegistrationId) (i : InstanceId) :
    (s.begin r i).usage r = s.usage r := s.usage_configure r

theorem resume_shareOrBuild_some (hu : s.isUnlocked r = true) (hs : (s.share r).2 = some i) :
    (shareOrBuild r >>= deliver r).resume s = ((s.share r).1, none, .done (.ok i)) := by
  have h : (shareOrBuild r >>= deliver r).resume s =
      if s.isUnlocked r then
        let y := ((match (s.share r).2 with
          | some i => return .ok i
          | none => do .modify (·.setLocked r true); buildShared r) >>= deliver r).stretch (s.share r).1
        (y.1, none, y.2)
      else (s, some (.unlock r), shareOrBuild r >>= deliver r) := rfl
  rw [h, if_pos hu, hs]
  rfl

/-- Who finds the slot empty locks it and builds, up to the `init` of what was built. -/
theorem resume_shareOrBuild_none (hu : s.isUnlocked r = true) (hs : s.share r = (s, none)) :
    (shareOrBuild r >>= deliver r).resume s =
      match ((s.setLocked r true).instantiate r).2 with
      | .error f =>
        ((((s.setLocked r true).instantiate r).1.setLocked r false).releaseSlot r, none,
          .done (.error f))
      | .ok i =>
        let u := ((s.setLocked r true).instantiate r).1
        (u.begin r i, none, (runInit r i (u.classOfInstance i) >>= place r i) >>= deliver r) := by
  have h : (shareOrBuild r >>= deliver r).resume s =
      if s.isUnlocked r then
        let y := ((match (s.share r).2 with
          | some i => return .ok i
          | none => do .modify (·.setLocked r true); buildShared r) >>= deliver r).stretch (s.share r).1
        (y.1, none, y.2)
      else (s, some (.unlock r), shareOrBuild r >>= deliver r) := rfl
  rw [h, if_pos hu, hs]
  have hb : ∀ t : Store, (buildShared r >>= deliver r).stretch t =
      ((match (t.instantiate r).2 with
        | .error f => do .modify (·.setLocked r false); return .error f
        | .ok i => do let outcome ← setUp r i; place r i outcome) >>= deliver r).stretch
        (t.instantiate r).1 := fun _ => rfl
  show (let y := (buildShared r >>= deliver r).stretch (s.setLocked r true); (y.1, none, y.2)) = _
  rw [hb]
  cases ((s.setLocked r true).instantiate r).2 <;> rfl

/-- The last stretch of building, from the end of the `init`. -/
theorem resume_runInit (cls : ClassId) :
    ∃ outcome : Except String Unit, ((runInit r i cls >>= place r i) >>= deliver r).resume s =
      match outcome with
      | .ok () => ((s.note (.initialized cls i (.ok ()))).publish r i, none, .done (.ok i))
      | .error cause =>
        let u := s.note (.initialized cls i (.error cause))
        let name := (u.registration r).name
        ((((u.drop i).setLocked r false).measure (.failed name .init)).releaseSlot r, none,
          .done (.error (.construction name cause))) := by
  let outcome := (s.classOf cls).init (s.runs cls .init)
    (((s.instance? i).bind (·.config)).getD (s.registration r).currentConfig)
  refine ⟨outcome, ?_⟩
  have h : ((runInit r i cls >>= place r i) >>= deliver r).resume s =
      let y := (place r i outcome >>= deliver r).stretch (s.note (.initialized cls i outcome))
      (y.1, none, y.2) := rfl
  rw [h]
  cases outcome <;> rfl

theorem resume_teardown (hu : s.isUnlocked r = true) :
    (teardown r).resume s =
      match (s.registration r).shared with
      | none => ((s.takeShared r).1, none, .done ())
      | some i => ((s.takeShared r).1, none, retire r i) := by
  have h : (teardown r).resume s =
      if s.isUnlocked r then
        let y := Activity.stretch (match (s.registration r).shared with
          | none => return ()
          | some i => retire r i) (s.takeShared r).1
        (y.1, none, y.2)
      else (s, some (.unlock r), teardown r) := rfl
  rw [h, if_pos hu]
  cases (s.registration r).shared <;> rfl

/-- The rest of a teardown whose `destroy` has started. -/
def lastStretch (i : InstanceId) (cls : ClassId) : Work Unit := do
  runDestroy i cls
  .modify (·.drop i)

/-- Who may destroy an instance starts to. -/
theorem resume_retire (hq : s.isQuiet r i = true) (h1 : s.holders i = 1) :
    (retire r i).resume s =
      (s.note (.destroying (s.classOfInstance i) i), none,
        lastStretch i (s.classOfInstance i)) := by
  have h : (retire r i).resume s =
      if s.isQuiet r i then
        let y := Activity.stretch (do
          if s.holders i = 1 then destroy i
          .modify (·.drop i)) s
        (y.1, none, y.2)
      else (s, some (.release r (s.registration r).releases), retire r i) := rfl
  rw [h, if_pos hq, if_pos h1]
  rfl

theorem resume_retire_wait (hq : s.isQuiet r i = false) :
    (retire r i).resume s = (s, some (.release r (s.registration r).releases), retire r i) := by
  have h : (retire r i).resume s =
      if s.isQuiet r i then
        let y := Activity.stretch (do
          if s.holders i = 1 then destroy i
          .modify (·.drop i)) s
        (y.1, none, y.2)
      else (s, some (.release r (s.registration r).releases), retire r i) := rfl
  rw [h, hq]
  rfl

theorem resume_lastStretch (cls : ClassId) :
    ∃ outcome, (lastStretch i cls).resume s =
      ((s.note (.destroyed cls i outcome)).drop i, none, .done ()) := ⟨_, rfl⟩

/-- While the slot is locked, whoever wants it parks until it is unlocked. -/
theorem resume_locked (hu : s.isUnlocked r = false) :
    (obtainShared r >>= deliver r).resume s =
        (s, some (.unlock r), obtainShared r >>= deliver r) ∧
      (shareOrBuild r >>= deliver r).resume s =
        (s, some (.unlock r), shareOrBuild r >>= deliver r) ∧
      (teardown r).resume s = (s, some (.unlock r), teardown r) := by
  refine ⟨?_, ?_, ?_⟩
  · show (if s.isUnlocked r then _ else _) = _
    rw [hu]
    rfl
  · show (if s.isUnlocked r then _ else _) = _
    rw [hu]
    rfl
  · show (if s.isUnlocked r then _ else _) = _
    rw [hu]
    rfl

end

/-! ## Taking turns -/

/-- Somebody at work on a registration. What waits is what it is parked on, if it is parked. -/
inductive Task where
  | request (wait : Option Signal) (rest : Work (Except Fault InstanceId))
  | holding (i : InstanceId)
  | teardown (wait : Option Signal) (rest : Work Unit)

namespace Task

/-- A request after a stretch: it holds an instance, is over, or goes on later. -/
def ofRequest (wait : Option Signal) : Work (Except Fault InstanceId) → List Task
  | .done (.ok i) => [holding i]
  | .done (.error _) => []
  | rest => [request wait rest]

def ofTeardown (wait : Option Signal) : Work Unit → List Task
  | .done () => []
  | rest => [teardown wait rest]

def isRequest : Task → Bool
  | request .. => true
  | _ => false

def isHolding : Task → Bool
  | holding _ => true
  | _ => false

end Task

/-- What goes on elsewhere: it leaves the ledger and what the registration has in use alone. -/
structure Elsewhere (r : RegistrationId) (s t : Store) : Prop where
  untouched : s.Untouched t
  enrols : s.Enrols t
  usage : t.usage r = s.usage r

/-- One of the tasks has its turn: a request or a teardown begins or goes on, if it is not parked
or its signal is ready, a request processes with what it holds or gives it back. -/
inductive Step (r : RegistrationId) : Store → List Task → Store → List Task → Prop where
  | request (s : Store) (ts : List Task) :
      Step r s ts ((createHandler r).stretch s).1
        (Task.ofRequest none ((createHandler r).stretch s).2 ++ ts)
  | teardown (s : Store) (ts : List Task) :
      Step r s ts ((Container.teardown r).stretch s).1
        (Task.ofTeardown none ((Container.teardown r).stretch s).2 ++ ts)
  | resumeRequest {s : Store} {wait : Option Signal} (x : Work (Except Fault InstanceId))
      (before after : List Task) : (∀ w ∈ wait, s.isReady w = true) →
      Step r s (before ++ .request wait x :: after) (x.resume s).1
        (before ++ (Task.ofRequest (x.resume s).2.1 (x.resume s).2.2 ++ after))
  | resumeTeardown {s : Store} {wait : Option Signal} (x : Work Unit)
      (before after : List Task) : (∀ w ∈ wait, s.isReady w = true) →
      Step r s (before ++ .teardown wait x :: after) (x.resume s).1
        (before ++ (Task.ofTeardown (x.resume s).2.1 (x.resume s).2.2 ++ after))
  | process {s : Store} {ts : List Task} {i : InstanceId} (cls : ClassId) : .holding i ∈ ts →
      Step r s ts (s.note (.processing cls i)) ts
  | release (s : Store) (i : InstanceId) (before after : List Task) :
      Step r s (before ++ .holding i :: after) (s.giveBack r i) (before ++ after)
  | elsewhere {s t : Store} (ts : List Task) : Elsewhere r s t → Step r s ts t ts

/-- The registration of a stateless class, before anybody has asked for an instance. -/
structure Unused (r : RegistrationId) (s : Store) : Prop where
  registered : r < s.registrations.size
  shares : (s.registration r).instancing.sharesInstance = true
  policy : (s.registration r).instancing = (s.classOf (s.registration r).cls).instancing
  vacant : ∀ r, (s.registration r).shared = none
  locked : (s.registration r).locked = false
  active : (s.registration r).active = 0
  instances : s.instances = {}
  acts : s.acts = []

/-- What requests and teardowns of one registration come to, in whatever order they take turns. -/
inductive Reach (r : RegistrationId) : Store → List Task → Prop where
  | start {s : Store} : Unused r s → Reach r s []
  | step {s t : Store} {ts ts' : List Task} : Reach r s ts → Step r s ts t ts' → Reach r t ts'

end Switchboard.Container
