import Switchboard.Proofs.Completion
import Switchboard.Proofs.ContextLedger
import Switchboard.Trial.Fixtures

/-!
# Calls through a context

A handler that passes calls on is rebuilt after every stop, while the endpoint keeps
what it has of its own. `Wired` states what stays as it is: the registration, its
class, the endpoint, and that whatever is in the slot is an instance of that class.
Phases of the context keep it (`phase_wired`), and an event that is dispatched is
answered as the endpoint answers it itself (`dispatch_answers`), so that over any run
of both the ledger of the endpoint goes through the calls one by one.
-/

namespace Switchboard

/-- What is asked of a context: to dispatch an event, or to stop or start. -/
inductive Container.Demand where
  | event (event : RequestEvent)
  | stop
  | start

open Container (Demand Handled Remote)

/-- An endpoint with its ledger, as a store holds it. -/
def Rpc.Endpoint.remote {ι : Type} (e : Rpc.Endpoint ι) (l : Rpc.Ledger) : Remote :=
  ⟨e.descriptor.name, l, e.call⟩

/-- What an endpoint makes of an event when it is asked without a container: the outcome of the call is
the response. Where either payload is of another type nothing is called. -/
def Rpc.Endpoint.answer {ι : Type} (e : Rpc.Endpoint ι) (handler : String) (l : Rpc.Ledger)
    (ev : RequestEvent) : Rpc.Ledger × Handled :=
  match ev.request, ev.response with
  | .call call context, .outcome _ =>
    let (l, result) := e.call l context call
    (l, { ev with handled := true, response := .outcome (some result) }, .ok ())
  | .call .., response =>
    (l, { ev with handled := true }, .error (.handler handler
      ("expected " ++ Payload.outcomeTag.name ++ ", got " ++ response.typeTag.name)))
  | request, _ =>
    (l, { ev with handled := true }, .error (.handler handler
      ("expected " ++ Payload.callTag.name ++ ", got " ++ request.typeTag.name)))

/-- The events one after the other, answered by the endpoint itself. -/
def Rpc.Endpoint.answers {ι : Type} (e : Rpc.Endpoint ι) (handler : String) :
    Rpc.Ledger → List Demand → Rpc.Ledger × List Handled
  | l, [] => (l, [])
  | l, .event ev :: ds =>
    let (l, out) := e.answer handler l ev
    let (l, outs) := e.answers handler l ds
    (l, out :: outs)
  | l, .stop :: ds => e.answers handler l ds
  | l, .start :: ds => e.answers handler l ds

namespace Container

open Activity
open Lifecycle (Phase runPhase)

/-! ## What the use of other handlers spares -/

/-- The tree, the classes and the endpoints are the same, instances are of the classes they were of, and
one registration has at most lost the instance in its slot. -/
structure Store.Spares (r : RegistrationId) (s t : Store) : Prop where
  components : t.components = s.components
  classes : t.classes = s.classes
  remotes : t.remotes = s.remotes
  charter : (t.registrations.get? r).map (·.charter) = (s.registrations.get? r).map (·.charter)
  slot : (t.registration r).shared = none ∨ (t.registration r).shared = (s.registration r).shared
  instances : ∀ i a, s.instance? i = some a → ∃ b, t.instance? i = some b ∧ b.cls = a.cls

namespace Store

variable {s t u : Store} {r r' : RegistrationId} {i : InstanceId}

theorem spares_of_eq (hd : t.components = s.components) (hc : t.classes = s.classes)
    (hm : t.remotes = s.remotes) (hr : t.registrations = s.registrations)
    (hi : t.instances = s.instances) : Spares r s t where
  components := hd
  classes := hc
  remotes := hm
  charter := by rw [hr]
  slot := .inr (by rw [registration, hr, registration])
  instances i a ha := ⟨a, by rw [instance?, hi]; exact ha, rfl⟩

theorem Spares.trans (h : Spares r s t) (k : Spares r t u) : Spares r s u where
  components := k.components.trans h.components
  classes := k.classes.trans h.classes
  remotes := k.remotes.trans h.remotes
  charter := k.charter.trans h.charter
  slot := by
    rcases k.slot with hk | hk
    · exact .inl hk
    · rw [hk]
      exact h.slot
  instances i a ha := by
    obtain ⟨b, hb, hab⟩ := h.instances i a ha
    obtain ⟨d, hd, hbd⟩ := k.instances i b hb
    exact ⟨d, hd, hbd.trans hab⟩

theorem bears_spares (r : RegistrationId) : Bears (Spares r) where
  refl _ := spares_of_eq rfl rfl rfl rfl rfl
  trans := Spares.trans
  note _ _ _ := spares_of_eq rfl rfl rfl rfl rfl
  measure _ _ := spares_of_eq rfl rfl rfl rfl rfl
  build s a := {
    components := rfl, classes := rfl, remotes := rfl, charter := rfl, slot := .inr rfl
    instances := fun i b hb => by
      refine ⟨b, ?_, rfl⟩
      rw [instance?_add, if_neg fun h => ?_]
      · exact hb
      · rw [h, instance?_size] at hb
        cases hb }
  handle s i f hf := {
    components := rfl, classes := rfl, remotes := rfl, charter := rfl, slot := .inr rfl
    instances := fun j a ha => by
      rw [instance?_updateInstance, ha]
      by_cases hij : i = j
      · exact ⟨f a, if_pos hij, hf a⟩
      · exact ⟨a, if_neg hij, rfl⟩ }

theorem spares_updateRegistration_of_ne {f : Registration → Registration} (h : r' ≠ r) :
    Spares r s (s.updateRegistration r' f) where
  components := rfl
  classes := rfl
  remotes := rfl
  charter := by rw [updateRegistration, Roster.get?_update, if_neg h]
  slot := .inr (by rw [registration_updateRegistration, if_neg fun hr => h hr.1])
  instances _ a ha := ⟨a, ha, rfl⟩

theorem permits_spares (h : r' ≠ r) : Permits r' (Spares r) where
  toBears := bears_spares r
  register _ _ _ _ := spares_updateRegistration_of_ne h
  configure _ := spares_updateRegistration_of_ne h

/-- A write to the registration itself that leaves its charter and at most empties its slot. -/
theorem spares_updateRegistration {f : Registration → Registration}
    (hf : (f (s.registration r)).charter = (s.registration r).charter)
    (hslot : (f (s.registration r)).shared = none ∨
      (f (s.registration r)).shared = (s.registration r).shared) :
    Spares r s (s.updateRegistration r f) where
  components := rfl
  classes := rfl
  remotes := rfl
  charter := (usesOnly_updateRegistration hf).charter
  slot := by
    rw [registration_updateRegistration]
    split
    · exact hslot
    · exact .inr rfl
  instances i a ha := ⟨a, ha, rfl⟩

end Store

/-! ## Lines -/

/-- The desk without the registrations that were replaced. -/
def Desk.standing (d : Desk) : Desk := { d with retired := [] }

/-- A registration on the desk of a context, and an endpoint. -/
structure Line where
  context : ComponentId
  desk : Desk
  registration : RegistrationId
  record : Registration
  endpoint : Nat

/-- The handler shares one instance, is available and is not restricted. -/
structure Line.Open (x : Line) : Prop where
  shares : x.record.instancing = .stateless
  available : x.record.unavailable = false
  unrestricted : x.record.isRestricted x.desk.settings.restrictedParam = false

/-- An instance of the class of the line. -/
def Store.Sits (x : Line) (i : InstanceId) (s : Store) : Prop :=
  (s.instance? i).map (·.cls) = some x.record.cls

/-- The registration passes calls on to the endpoint, and whatever sits in its slot does so. -/
structure Store.Wired (x : Line) (remote : Remote) (s : Store) : Prop where
  desk : (s.desk? x.context).map Desk.standing = some x.desk.standing
  record : (s.registrations.get? x.registration).map (·.charter) = some x.record.charter
  cls : s.classes.get? x.record.cls = some (HandlerClass.remote remote.interface x.endpoint)
  remote : s.remotes.get? x.endpoint = some remote
  slot : ∀ i, (s.registration x.registration).shared = some i → s.Sits x i

section

variable {x : Line} {remote : Remote} {s t : Store} {i : InstanceId}

theorem Store.Sits.spared {r : RegistrationId} (h : s.Sits x i) (hs : s.Spares r t) : t.Sits x i := by
  obtain ⟨a, ha, hcls⟩ := Option.map_eq_some_iff.1 h
  obtain ⟨b, hb, hba⟩ := hs.instances i a ha
  exact Option.map_eq_some_iff.2 ⟨b, hb, hba.trans hcls⟩

theorem Store.Wired.spared (h : s.Wired x remote) (hs : s.Spares x.registration t) : t.Wired x remote where
  desk := by
    have hd : t.desk? x.context = s.desk? x.context := by
      rw [Store.desk?, Store.component, hs.components, Store.desk?, Store.component]
    rw [hd]
    exact h.desk
  record := hs.charter.trans h.record
  cls := hs.classes ▸ h.cls
  remote := hs.remotes ▸ h.remote
  slot i hi := by
    rcases hs.slot with hn | he
    · rw [hn] at hi
      cases hi
    · exact (h.slot i (he ▸ hi)).spared hs

theorem Store.Wired.registered (h : s.Wired x remote) : x.registration < s.registrations.size := by
  obtain ⟨g, hg, -⟩ := Option.map_eq_some_iff.1 h.record
  exact Roster.lt_size_of_get? hg

/-- The registration of a line is what its record says, but for what is in use of it. -/
theorem Store.Wired.charter (h : s.Wired x remote) :
    (s.registration x.registration).charter = x.record.charter := by
  obtain ⟨g, hg, hcharter⟩ := Option.map_eq_some_iff.1 h.record
  rw [Store.registration, Roster.getD, hg]
  exact hcharter

theorem Store.Wired.class_eq (h : s.Wired x remote) : (s.registration x.registration).cls = x.record.cls := by
  have hcls := congrArg Registration.cls h.charter
  exact hcls

theorem Store.Wired.name_eq (h : s.Wired x remote) : (s.registration x.registration).name = x.record.name := by
  have hname := congrArg Registration.name h.charter
  exact hname

theorem Store.Wired.classOf_eq (h : s.Wired x remote) :
    s.classOf x.record.cls = HandlerClass.remote remote.interface x.endpoint := by
  rw [Store.classOf, Roster.getD, h.cls]
  rfl

theorem Store.Wired.init_eq_ok (h : s.Wired x remote) (n : Nat) (config : HandlerConfig) :
    (s.classOf x.record.cls).init n config = .ok () := by
  rw [h.classOf_eq]
  rfl

theorem Store.Sits.classOfInstance_eq (h : s.Sits x i) : s.classOfInstance i = x.record.cls := by
  rw [Store.classOfInstance, h]
  rfl

/-! ## Registering -/

/-- The registration that an entry is made into, of a class that passes calls on. -/
def Entry.relay (entry : Entry) (context : String) : Registration :=
  Registration.attach
    { name := entry.name, cls := entry.cls, instancing := .stateless, params := entry.params
      unavailable := entry.unavailable, loadOnStartup := entry.loadOnStartup, hook := entry.hook } context

/-- The line that an entry makes when it is registered. -/
def Entry.line (entry : Entry) (s : Store) (c : ComponentId) (desk : Desk) (endpoint : Nat) : Line where
  context := c
  desk := desk.insert entry.name s.registrations.size
  registration := s.registrations.size
  record := entry.relay (s.name c)
  endpoint := endpoint

theorem register_wired {c : ComponentId} {desk : Desk} {entry : Entry} {endpoint : Nat}
    (hd : s.desk? c = some desk)
    (hc : s.classes.get? entry.cls = some (HandlerClass.remote remote.interface endpoint))
    (hr : s.remotes.get? endpoint = some remote) :
    (s.register c entry).Wired (entry.line s c desk endpoint) remote := by
  have hclass : s.classOf entry.cls = HandlerClass.remote remote.interface endpoint := by
    rw [Store.classOf, Roster.getD, hc]
    rfl
  have hnew : s.newRegistration entry.name entry.cls =
      .ok { name := entry.name, cls := entry.cls, instancing := .stateless } := by
    simp only [Store.newRegistration, hclass]
    rfl
  have hadded : (s.register c entry).registrations.get? s.registrations.size = some (entry.relay (s.name c)) := by
    simp only [Store.register, hnew]
    show ((s.registrations.add _).update s.registrations.size _).get? s.registrations.size = _
    rw [Roster.get?_update, if_pos rfl, Roster.get?_add, if_pos rfl]
    rfl
  have hdesk : (s.register c entry).desk? c = some (desk.insert entry.name s.registrations.size) := by
    simp only [Store.register, hnew, Store.addRegistration, Store.insertRegistration, Store.desk?_updateDesk,
      if_true, Store.registration_add]
    exact congrArg (Option.map fun d : Desk => d.insert entry.name s.registrations.size) hd
  refine ⟨by rw [Entry.line, hdesk]; rfl, by rw [Entry.line, hadded]; rfl, ?_, ?_, fun i hi => ?_⟩
  · simp only [Store.register, hnew]
    exact hc
  · simp only [Store.register, hnew]
    exact hr
  · have hslot : ((s.register c entry).registration s.registrations.size).shared = none := by
      rw [Store.registration, Roster.getD, hadded]
      rfl
    cases hslot.symm.trans hi

/-! ## The shared instance -/

/-- Something was obtained that passes calls on. -/
def Store.Hands (x : Line) (remote : Remote) (out : Except Fault InstanceId) (s : Store) : Prop :=
  s.Wired x remote ∧ ∃ i, out = .ok i ∧ s.Sits x i

theorem Store.instantiate_of_construct {r : RegistrationId}
    (h : (s.classOf (s.registration r).cls).construct (s.runs (s.registration r).cls .construct) = .ok ()) :
    (s.instantiate r).2 = .ok s.instances.size ∧
      ((s.instantiate r).1.instance? s.instances.size).map (·.cls) = some (s.registration r).cls := by
  unfold Store.instantiate
  dsimp only
  split
  next hc => cases h.symm.trans hc
  next =>
    refine ⟨rfl, ?_⟩
    show (Roster.get? (s.instances.add _) s.instances.size).map (·.cls) = _
    rw [Roster.get?_add, if_pos rfl]
    rfl

theorem Store.Wired.instantiate (h : s.Wired x remote) :
    (s.instantiate x.registration).1.Hands x remote (s.instantiate x.registration).2 := by
  have hok : (s.classOf (s.registration x.registration).cls).construct
      (s.runs (s.registration x.registration).cls .construct) = .ok () := by
    rw [h.class_eq, h.classOf_eq]
    rfl
  obtain ⟨hout, hsits⟩ := Store.instantiate_of_construct hok
  rw [h.class_eq] at hsits
  exact ⟨h.spared ((Store.bears_spares _).instantiate s _), _, hout, hsits⟩

theorem setUp_wired (h : s.Wired x remote) (hi : s.Sits x i) :
    Ensures Eq (setUp x.registration i) (fun _ out t => out = .ok () ∧ t.Wired x remote ∧ t.Sits x i) s := by
  have hbears := Store.bears_spares x.registration
  have hconfigure : s.Spares x.registration (s.configure x.registration).1 :=
    Store.spares_updateRegistration (s.registration _).charter_config (.inr (s.registration _).shared_config)
  simp only [setUp, runInit, ensures_bind, ensures_act, ensures_yield]
  rintro _ rfl
  have hspared := hconfigure.trans (hbears.trans
    (hbears.handle _ i (f := fun a => { a with config := some (s.configure x.registration).2 }) fun _ => rfl)
    (hbears.note _ (a := .initializing (s.classOfInstance i) i (s.configure x.registration).2) ⟨rfl, rfl⟩))
  have hw := h.spared hspared
  refine ⟨?_, hw.spared (hbears.note _ ⟨rfl, rfl⟩), (hi.spared hspared).spared (hbears.note _ ⟨rfl, rfl⟩)⟩
  rw [hi.classOfInstance_eq] at hw ⊢
  exact hw.init_eq_ok _ _

theorem Store.Wired.publish (h : s.Wired x remote) (hi : s.Sits x i) :
    (s.publish x.registration i).Hands x remote (.ok i) := by
  have hsits : (s.publish x.registration i).Sits x i := by
    have hclass : ∀ a : Instance, ({ a with holders := a.holders + 1 } : Instance).cls = a.cls := fun _ => rfl
    obtain ⟨a, ha, hcls⟩ := Option.map_eq_some_iff.1 hi
    obtain ⟨b, hb, hba⟩ := ((Store.bears_spares 0).handle s i hclass).instances i a ha
    exact Option.map_eq_some_iff.2 ⟨b, hb, hba.trans hcls⟩
  have hcharter : s.UsesOnly x.registration (s.publish x.registration i) := (Store.permits_usesOnly _).publish s i
  refine ⟨⟨?_, hcharter.charter.trans h.record, h.cls, h.remote, fun j hj => ?_⟩, i, rfl, hsits⟩
  · exact h.desk
  · have hslot : ((s.publish x.registration i).registration x.registration).shared = some i := by
      show ((s.updateRegistration x.registration _).registration x.registration).shared = some i
      rw [Store.registration_updateRegistration, if_pos ⟨rfl, h.registered⟩]
    rw [hslot] at hj
    exact Option.some.inj hj ▸ hsits

theorem Store.Wired.setLocked (h : s.Wired x remote) (locked : Bool) :
    (s.setLocked x.registration locked).Wired x remote :=
  h.spared (Store.spares_updateRegistration rfl (.inr rfl))

theorem buildShared_wired (h : s.Wired x remote) :
    Ensures Eq (buildShared x.registration) (fun _ out t => t.Hands x remote out) s := by
  obtain ⟨hw, i, hout, hi⟩ := h.instantiate
  simp only [buildShared, ensures_bind, ensures_act, hout]
  refine (setUp_wired hw hi).mono fun _ out t ht => ?_
  obtain ⟨rfl, hw, hi⟩ := ht
  simp only [place, ensures_bind, ensures_modify, ensures_pure]
  exact hw.publish hi

/-- What is in the slot is handed out, and held once more. -/
theorem Store.Wired.share (h : s.Wired x remote) : (s.share x.registration).1.Wired x remote ∧
    ∀ i, (s.share x.registration).2 = some i → (s.share x.registration).1.Sits x i := by
  have hspared := (Store.bears_spares x.registration).share x.registration s
  refine ⟨h.spared hspared, fun i hi => ?_⟩
  have hslot : (s.registration x.registration).shared = some i := by
    unfold Store.share at hi
    split at hi
    next j hj => exact hj.trans hi
    next => cases hi
  exact (h.slot i hslot).spared hspared

theorem shareOrBuild_wired (h : s.Wired x remote) :
    Ensures Eq (shareOrBuild x.registration) (fun _ out t => t.Hands x remote out) s := by
  simp only [shareOrBuild, ensures_bind, ensures_waitUntil, ensures_act]
  rintro _ rfl -
  obtain ⟨hw, hi⟩ := h.share
  cases hs : (s.share x.registration).2 with
  | some i => exact ensures_pure.2 ⟨hw, i, rfl, hi i hs⟩
  | none =>
    simp only [ensures_bind, ensures_modify]
    exact buildShared_wired (hw.setLocked true)

theorem obtainShared_wired (h : s.Wired x remote) :
    Ensures Eq (obtainShared x.registration) (fun _ out t => t.Hands x remote out) s := by
  simp only [obtainShared, ensures_bind, ensures_waitUntil, ensures_act]
  rintro _ rfl -
  obtain ⟨hw, hi⟩ := h.share
  cases hs : (s.share x.registration).2 with
  | some i => exact ensures_pure.2 ⟨hw, i, rfl, hi i hs⟩
  | none => exact shareOrBuild_wired hw

theorem Store.Wired.instancing (h : s.Wired x remote) (ho : x.Open) :
    (s.registration x.registration).instancing.sharesInstance = true := by
  have hinst : (s.registration x.registration).instancing = x.record.instancing := by
    have := congrArg Registration.instancing h.charter
    exact this
  rw [hinst, ho.shares]
  rfl

/-- A request always gets an instance, since neither building nor initializing one can fail. -/
theorem createHandler_wired (h : s.Wired x remote) (ho : x.Open) :
    Ensures Eq (createHandler x.registration) (fun _ out t => t.Hands x remote out) s := by
  simp only [createHandler, ensures_bind, ensures_act, h.instancing ho, if_true]
  have hw : Store.Wired x remote (s.updateRegistration x.registration fun g => { g with active := g.active + 1 }) :=
    h.spared (Store.spares_updateRegistration rfl (.inr rfl))
  refine (obtainShared_wired hw).mono fun _ out t ht => ?_
  obtain ⟨hw, i, rfl, hi⟩ := ht
  exact ensures_pure.2 ⟨hw, i, rfl, hi⟩

theorem Store.Wired.giveBack (h : s.Wired x remote) (i : InstanceId) :
    (s.giveBack x.registration i).Wired x remote :=
  h.spared (((Store.bears_spares _).drop s i).trans (Store.spares_updateRegistration
    (Registration.charter_released _) (.inr (Registration.shared_released _))))

/-! ## Phases of the context -/

/-- What spares the registration in all that it writes leaves the line as it is. -/
theorem Store.Wired.ensures {α : Type} {y : Work α} (h : s.Wired x remote)
    (hy : Guarantees Eq (Store.Spares x.registration) y) :
    Ensures Eq y (fun _ _ t => t.Wired x remote) s := by
  have hbears := Store.bears_spares x.registration
  refine (hy.frame hbears.refl (fun _ _ _ => hbears.trans) (fun s _ hst => hst ▸ hbears.refl s) s).mono ?_
  exact fun _ _ t ht => h.spared ht

theorem preload_wired (h : s.Wired x remote) (ho : x.Open) (r : RegistrationId) :
    Ensures Eq (preload r) (fun _ _ t => t.Wired x remote) s := by
  by_cases hr : r = x.registration
  · subst hr
    simp only [preload, ensures_bind, ensures_get, h.instancing ho, if_true]
    refine (createHandler_wired h ho).mono fun _ out t ht => ?_
    obtain ⟨hw, i, rfl, -⟩ := ht
    simp only [ensures_bind, ensures_modify, ensures_pure]
    exact hw.giveBack i
  · exact h.ensures (permits_preload (Store.permits_spares hr))

theorem preloadAll_wired (h : s.Wired x remote) (ho : x.Open) (rs : List RegistrationId) :
    Ensures Eq (preloadAll rs) (fun _ _ t => t.Wired x remote) s := by
  induction rs generalizing s with
  | nil => exact ensures_pure.2 h
  | cons r rs ih =>
    simp only [preloadAll, ensures_bind, ensures_get]
    split
    · refine ensures_bind.2 ((preload_wired h ho r).mono fun _ out t ht => ?_)
      cases out with
      | error f => exact ensures_pure.2 ht
      | ok => exact ih ht
    · exact ih h

/-- A teardown at most empties the slot. -/
theorem spares_teardown (r r' : RegistrationId) : Guarantees Eq (Store.Spares r) (teardown r') := by
  by_cases hr : r' = r
  · subst hr
    refine (guarantees_waitUntil _ _).bind fun _ => ?_
    refine Guarantees.bind (guarantees_act fun s => ?_) fun taken => ?_
    · exact Store.spares_updateRegistration rfl (.inl rfl)
    · cases taken with
      | none => exact guarantees_pure _
      | some i => exact bears_retire (Store.bears_spares _) r' i
  · exact permits_teardown (Store.permits_spares hr)

theorem teardownAll_wired (h : s.Wired x remote) (rs : List RegistrationId) :
    Ensures Eq (teardownAll rs) (fun _ _ t => t.Wired x remote) s := by
  have hspares : Guarantees Eq (Store.Spares x.registration) (teardownAll rs) := by
    induction rs with
    | nil => exact guarantees_pure _
    | cons r rs ih => exact (spares_teardown _ r).bind fun _ => ih
  exact h.ensures hspares

theorem Store.Wired.takeRetired (h : s.Wired x remote) (c : ComponentId) :
    (s.takeRetired c).1.Wired x remote where
  desk := by
    show ((s.updateDesk c _).desk? x.context).map Desk.standing = _
    rw [Store.desk?_updateDesk, ← h.desk]
    split
    · rw [Option.map_map]
      rfl
    · rfl
  record := h.record
  cls := h.cls
  remote := h.remote
  slot := h.slot

theorem contextHook_wired (h : s.Wired x remote) (ho : x.Open) (c : ComponentId) {p : Phase}
    (hp : p ≠ .destroy) : Ensures Eq (contextHook c p) (fun _ _ t => t.Wired x remote) s := by
  cases p with
  | init => exact ensures_pure.2 h
  | start =>
    simp only [contextHook, ensures_bind, ensures_get]
    exact preloadAll_wired h ho _
  | stop =>
    simp only [contextHook, ensures_bind, ensures_act, ensures_get, ensures_pure]
    exact (teardownAll_wired (h.takeRetired c) _).mono fun _ _ u hu => teardownAll_wired hu _
  | destroy => exact absurd rfl hp

theorem phase_wired (h : s.Wired x remote) (ho : x.Open) {p : Phase} (hp : p ≠ .destroy) :
    Ensures Eq (phase x.context p) (fun _ _ t => t.Wired x remote) s := by
  obtain ⟨desk, hdesk, -⟩ := Option.map_eq_some_iff.1 h.desk
  let hook (q : Phase) : PhaseHook := if q = .destroy then pure (.ok ()) else contextHook x.context q
  have hhook : runPhase (hookAt 0 x.context) x.context p = runPhase hook x.context p :=
    Lifecycle.runPhase_congr (if_neg (by decide)).symm (if_neg hp).symm
  refine ensures_bind.2 (ensures_get.2 ?_)
  rw [height_of_desk hdesk, hhook]
  have hboard : ∀ (s : Store) b, s.Wired x remote → Store.Wired x remote (Lifecycle.HasBoard.setBoard s b) :=
    fun _ _ h => ⟨h.desk, h.record, h.cls, h.remote, h.slot⟩
  refine (Lifecycle.runPhase_ends (J := fun _ s => s.Wired x remote) hboard (fun _ => hboard)
    (fun _ _ h => h) (fun _ => rfl) (fun q s hs => ?_) h).mono fun _ _ _ ht => ht.1
  by_cases hq : q = .destroy
  · simp only [hook, if_pos hq, ensures_pure, hs]
  · simp only [hook, if_neg hq]
    exact contextHook_wired hs ho x.context hq

end

/-! ## Answers -/

section

variable {ι : Type} {e : Rpc.Endpoint ι} {l : Rpc.Ledger} {x : Line} {s t : Store} {i : InstanceId}

theorem Store.Wired.ledger (h : s.Wired x (e.remote l)) (l' : Rpc.Ledger) :
    Store.Wired x (e.remote l')
      { s with remotes := s.remotes.update x.endpoint fun m => { m with ledger := l' } } where
  desk := h.desk
  record := h.record
  cls := h.cls
  remote := by
    rw [Roster.get?_update, if_pos rfl, h.remote]
    rfl
  slot := h.slot

/-- An instance of the class answers as the endpoint does. -/
theorem perform_answers (h : s.Wired x (e.remote l)) (handler : String) (ev : RequestEvent)
    (i : InstanceId) :
    let done := s.perform x.record.cls i ev.request ev.response
    ({ ev with handled := true, response := done.2.1 }, done.2.2.mapError (Fault.handler handler)) =
        (e.answer handler l ev).2 ∧
      done.1.Wired x (e.remote (e.answer handler l ev).1) ∧
      done.1.registrations = s.registrations := by
  have hperform : ∀ request response, s.perform x.record.cls i request response =
      s.forward x.endpoint request response := by
    intro request response
    rw [Store.perform, h.classOf_eq]
    rfl
  obtain ⟨request, response, named, handled⟩ := ev
  simp only [hperform]
  cases request with
  | call call context =>
    cases response with
    | outcome result =>
      simp only [Store.forward, h.remote]
      exact ⟨rfl, h.ledger _, trivial⟩
    | _ => exact ⟨rfl, h, rfl⟩
  | _ => exact ⟨rfl, h, rfl⟩

theorem linger_completes {cls : ClassId} {Q : Unit → Store → Prop} (hg : (s.classOf cls).gate = none)
    (hq : Q () s) : Completes (linger cls) Q s := by
  simp only [linger, completes_bind, completes_get, hg]
  exact completes_yield.2 hq

theorem process_answers (h : s.Wired x (e.remote l)) (hi : s.Sits x i) (handler : String)
    (ev : RequestEvent) :
    Completes (process i { ev with handled := true }) (fun out t =>
      (out.1, out.2.mapError (Fault.handler handler)) = (e.answer handler l ev).2 ∧
        t.Wired x (e.remote (e.answer handler l ev).1) ∧ t.registrations = s.registrations) s := by
  simp only [process, completes_bind, completes_act, hi.classOfInstance_eq]
  have hw : Store.Wired x (e.remote l) (s.note (.processing x.record.cls i)) :=
    h.spared (Store.spares_of_eq rfl rfl rfl rfl rfl)
  refine linger_completes (by rw [hw.classOf_eq]; rfl) ?_
  obtain ⟨hout, hw, hr⟩ := perform_answers hw handler ev i
  exact ⟨hout, hw.spared (Store.spares_of_eq rfl rfl rfl rfl rfl), hr⟩

/-- An event that reaches the handler is answered as the endpoint answers it. -/
theorem serve_answers (h : s.Wired x (e.remote l)) (ho : x.Open) (hrest : s.AtRest) (ev : RequestEvent) :
    Completes (serve x.registration ev) (fun out t =>
      out = (e.answer x.record.name l ev).2 ∧ t.AtRest ∧
        t.Wired x (e.remote (e.answer x.record.name l ev).1)) s := by
  refine completes_bind.2 (((createHandler_completes (hrest.engaged h.registered)).ensures
    (fun _ => rfl) (createHandler_wired h ho)).mono ?_)
  rintro _ t ⟨hengaged, hw, i, rfl, hi⟩
  simp only [completes_bind, completes_get, hw.instancing ho, prepare, if_true, completes_pure, hw.name_eq]
  refine (process_answers hw hi x.record.name ev).mono ?_
  rintro ⟨ev', outcome⟩ u ⟨hout, hw, hr⟩
  simp only [Bool.not_true, Bool.false_eq_true, if_false, finish, completes_bind, completes_modify]
  have hrest : (u.giveBack x.registration i).AtRest :=
    ((hengaged.congr hr).congr (t := u.drop i) rfl).releaseSlot.atRest
  have hw := hw.giveBack i
  cases outcome with
  | ok => exact completes_pure.2 ⟨hout, hrest, hw⟩
  | error cause =>
    simp only [completes_bind, completes_modify, completes_pure]
    exact ⟨hout, hrest.congr rfl, hw.spared (Store.spares_of_eq rfl rfl rfl rfl rfl)⟩

theorem dispatch_answers (h : s.Wired x (e.remote l)) (ho : x.Open) (hrest : s.AtRest)
    {ev : RequestEvent} (hev : x.desk.resolve ev = some x.registration) :
    Completes (dispatchContext x.context ev) (fun out t =>
      out = (e.answer x.record.name l ev).2 ∧ t.AtRest ∧
        t.Wired x (e.remote (e.answer x.record.name l ev).1)) s := by
  obtain ⟨desk, hdesk, hstanding⟩ := Option.map_eq_some_iff.1 h.desk
  have hresolve : desk.resolve ev = some x.registration :=
    (congrArg (fun d : Desk => d.resolve ev) hstanding).trans hev
  have hsettings : desk.standing.settings = x.desk.standing.settings := congrArg Desk.settings hstanding
  rw [Desk.standing, Desk.standing] at hsettings
  have hopen : (s.registration x.registration).unavailable = false :=
    (congrArg Registration.unavailable h.charter).trans ho.available
  have hfree : (s.registration x.registration).isRestricted desk.settings.restrictedParam = false := by
    rw [hsettings]
    exact (congrArg (fun g : Registration => g.isRestricted x.desk.settings.restrictedParam) h.charter).trans
      ho.unrestricted
  simp only [dispatchContext, completes_bind, completes_get, hdesk, hresolve, hopen, hfree,
    Bool.false_eq_true, if_false]
  exact serve_answers h ho hrest ev

end

/-! ## Runs -/

/-- The demands one after the other, with what the events came back as. What becomes of the phases
does not matter. -/
def attend (c : ComponentId) : List Demand → Work (List Handled)
  | [] => return []
  | .event ev :: ds => do
    let out ← dispatchContext c ev
    return out :: (← attend c ds)
  | .stop :: ds => do
    let _ ← phase c .stop
    attend c ds
  | .start :: ds => do
    let _ ← phase c .start
    attend c ds

/-- Whatever calls a context is asked to dispatch, and however often it stops and starts in between, it
comes back with what the endpoint answers when it is called itself. -/
theorem calls_pass_through {ι : Type} (e : Rpc.Endpoint ι) (x : Line) (ho : x.Open) (ds : List Demand)
    (hds : ∀ ev, .event ev ∈ ds → x.desk.resolve ev = some x.registration) (l : Rpc.Ledger) (s : Store)
    (h : s.Wired x (e.remote l)) (hrest : s.AtRest) :
    Completes (attend x.context ds) (fun outs t =>
      outs = (e.answers x.record.name l ds).2 ∧
        t.remotes.get? x.endpoint = some (e.remote (e.answers x.record.name l ds).1)) s := by
  induction ds generalizing s l with
  | nil => exact completes_pure.2 ⟨rfl, h.remote⟩
  | cons d ds ih =>
    have hrec := ih fun ev hev => hds ev (List.mem_cons_of_mem d hev)
    have hphase : ∀ p : Lifecycle.Phase, p ≠ .destroy → Completes (phase x.context p) (fun _ t =>
        Completes (attend x.context ds) (fun outs t => outs = (e.answers x.record.name l ds).2 ∧
          t.remotes.get? x.endpoint = some (e.remote (e.answers x.record.name l ds).1)) t) s := by
      intro p hp
      refine ((phase_completes hrest x.context p).ensures (fun _ => rfl) (phase_wired h ho hp)).mono ?_
      exact fun _ t ht => hrec l t ht.2 ht.1
    cases d with
    | stop => exact completes_bind.2 (hphase .stop (by decide))
    | start => exact completes_bind.2 (hphase .start (by decide))
    | event ev =>
      refine completes_bind.2 ((dispatch_answers h ho hrest (hds ev List.mem_cons_self)).mono ?_)
      rintro _ t ⟨rfl, hrest, hw⟩
      simp only [completes_bind, completes_pure]
      refine (hrec _ t hw hrest).mono ?_
      rintro outs u ⟨rfl, hu⟩
      exact ⟨rfl, hu⟩

/-- An interface with one method. -/
def sampleTally : Rpc.Interface where
  name := "Tally"
  remote := true
  component := true
  methods := [
    { name := "next", isPublic := true, isStatic := false, exported := true, description := "",
      params := [], returns := .primitive .int }]

/-- A shared implementation that counts its calls and fails the second of them. -/
def sampleTallier : Rpc.Implementation Unit where
  name := "Tallier"
  instancing := .stateless
  build _ _ := .ok ()
  inject := none
  methods := [⟨"next", [], .primitive .int, true, fun n _ _ _ => if n = 1 then .error "busy" else .ok (.int n)⟩]

/-- A context that knows the endpoint, with nothing registered as yet. -/
def sampleHotline (remote : Remote) : Store :=
  { sampleContext with classes := ⟨[HandlerClass.remote remote.interface 0]⟩, remotes := ⟨[remote]⟩ }

/-- Three calls with a stop, a text and a start in between. -/
def sampleDemands : List Demand :=
  let call : RequestEvent := {
    request := .call ⟨"Tally.next()I", []⟩ ⟨none, .empty⟩, response := .outcome none, handler := some "tally" }
  [.event call, .stop, .event call, .event { call with request := .text "next" }, .start, .event call]

/-- The second call fails, which is its outcome and no fault of the dispatch; the text is refused; and
the endpoint does not notice that its handler is built anew after the stop. -/
theorem calls_pass_through_sample :
    ∃ (e : Rpc.Endpoint Unit) (l : Rpc.Ledger) (x : Line) (s : Store),
      Rpc.Endpoint.build sampleTally sampleTallier (fun _ => true) .empty = (l, .ok e) ∧
      s = (sampleHotline (e.remote l)).register 0 { name := "tally", cls := 0 } ∧
      x.Open ∧ (∀ ev, .event ev ∈ sampleDemands → x.desk.resolve ev = some x.registration) ∧
      s.Wired x (e.remote l) ∧ s.AtRest ∧
      Completes (attend x.context sampleDemands) (fun outs _ =>
        outs.map (fun out => (out.1.response, out.2)) = [
          (.outcome (some (.ok (.int 0))), .ok ()),
          (.outcome (some (.error (.target "Tally.next()I" "busy"))), .ok ()),
          (.outcome none, .error (.handler "tally" "expected bindlet.rpc.request, got test.text")),
          (.outcome (some (.ok (.int 2))), .ok ())]) s := by
  obtain ⟨l, e, hbuild, hanswers⟩ : ∃ l e,
      Rpc.Endpoint.build sampleTally sampleTallier (fun _ => true) .empty = (l, .ok e) ∧
      ((e.answers "tally" l sampleDemands).2.map fun out => (out.1.response, out.2)) = [
        (.outcome (some (.ok (.int 0))), .ok ()),
        (.outcome (some (.error (.target "Tally.next()I" "busy"))), .ok ()),
        (.outcome none, .error (.handler "tally" "expected bindlet.rpc.request, got test.text")),
        (.outcome (some (.ok (.int 2))), .ok ())] := ⟨_, _, rfl, rfl⟩
  let entry : Entry := { name := "tally", cls := 0 }
  let x := entry.line (sampleHotline (e.remote l)) 0 { request := .any, response := .any } 0
  have hw : ((sampleHotline (e.remote l)).register 0 entry).Wired x (e.remote l) := register_wired rfl rfl rfl
  have hopen : x.Open := ⟨rfl, rfl, rfl⟩
  have hdemands : ∀ ev, .event ev ∈ sampleDemands → x.desk.resolve ev = some x.registration := by
    intro ev hev
    simp only [sampleDemands, List.mem_cons, List.not_mem_nil, or_false, Demand.event.injEq, reduceCtorEq,
      false_or] at hev
    rcases hev with rfl | rfl | rfl | rfl <;> rfl
  have hrest : ((sampleHotline (e.remote l)).register 0 entry).AtRest := by
    intro r
    cases r <;> exact ⟨rfl, rfl⟩
  refine ⟨e, l, x, _, hbuild, rfl, hopen, hdemands, hw, hrest, ?_⟩
  refine (calls_pass_through e x hopen sampleDemands hdemands l _ hw hrest).mono ?_
  rintro outs t ⟨rfl, -⟩
  exact hanswers

end Container
end Switchboard
