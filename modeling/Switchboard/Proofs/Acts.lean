import Switchboard.Container.Dispatch
import Switchboard.Proofs.Runs

/-!
# What is noted

The journal of acts only grows. `Notes p s t`: what was noted from `s` to `t`
satisfies `p`; `noted own` lists what the writes of a run noted. The stages of a
handler that neither process nor ask a hook are collected here, so that a
dispatch can count what is left.
-/

namespace Switchboard.Container

open Activity

namespace Act

def isProcessing : Act → Bool
  | processing .. => true
  | _ => false

def isQuestion : Act → Bool
  | asked .. => true
  | _ => false

/-- Neither the start of a `process` nor a question to a hook. -/
def IsQuiet (a : Act) : Prop := a.isProcessing = false ∧ a.isQuestion = false

end Act

namespace Store

/-- Everything noted from `s` to `t` satisfies `p`. -/
def Notes (p : Act → Prop) (s t : Store) : Prop := ∃ new, t.acts = new ++ s.acts ∧ ∀ a ∈ new, p a

theorem notes_of_acts_eq {p : Act → Prop} {s t : Store} (h : t.acts = s.acts) : Notes p s t :=
  ⟨[], h, by simp⟩

theorem notes_note {p : Act → Prop} {a : Act} (h : p a) (s : Store) : Notes p s (s.note a) :=
  ⟨[a], rfl, by simpa using h⟩

theorem Notes.mono {p q : Act → Prop} {s t : Store} (h : Notes p s t) (k : ∀ a, p a → q a) :
    Notes q s t := by
  obtain ⟨new, hn, hp⟩ := h
  exact ⟨new, hn, fun a ha => k a (hp a ha)⟩

theorem Notes.trans {p : Act → Prop} {s t u : Store} (h : Notes p s t) (k : Notes p t u) :
    Notes p s u := by
  obtain ⟨as, ha, hp⟩ := h
  obtain ⟨bs, hb, hq⟩ := k
  exact ⟨bs ++ as, by rw [hb, ha, List.append_assoc], List.forall_mem_append.2 ⟨hq, hp⟩⟩

/-- The tree and the desks are the same, and so are the classes of all registrations. -/
structure Steady (s t : Store) : Prop where
  components : t.components = s.components
  classes : t.classes = s.classes
  policies : ∀ r, (t.registrations.get? r).map (·.policy) = (s.registrations.get? r).map (·.policy)

theorem Steady.refl (s : Store) : Steady s s := ⟨rfl, rfl, fun _ => rfl⟩

theorem Steady.trans (s t u : Store) (h : Steady s t) (k : Steady t u) : Steady s u :=
  ⟨k.1.trans h.1, k.2.trans h.2, fun r => (k.3 r).trans (h.3 r)⟩

theorem steady_of_eq {s t : Store} (hd : t.components = s.components) (hc : t.classes = s.classes)
    (hr : t.registrations = s.registrations) : Steady s t := ⟨hd, hc, fun _ => by rw [hr]⟩

theorem steady_updateRegistration {s : Store} {r : RegistrationId} {f : Registration → Registration}
    (hf : (f (s.registration r)).policy = (s.registration r).policy) :
    Steady s (s.updateRegistration r f) := by
  refine ⟨rfl, rfl, fun r' => ?_⟩
  rw [updateRegistration, Roster.get?_update]
  split
  · rename_i h
    subst h
    cases hr : s.registrations.get? r with
    | none => rfl
    | some g =>
      have hg : s.registration r = g := by rw [registration, Roster.getD, hr, Option.getD_some]
      rw [hg] at hf
      simp [hf]
  · rfl

/-- Nothing but what is in use of one registration may have changed of the lifecycles, the tree, the
desks, the classes, the hooks and the registrations. -/
structure UsesOnly (r : RegistrationId) (s t : Store) : Prop where
  board : t.board = s.board
  components : t.components = s.components
  classes : t.classes = s.classes
  hooks : t.hooks = s.hooks
  others : ∀ r' ≠ r, t.registrations.get? r' = s.registrations.get? r'
  charter : (t.registrations.get? r).map (·.charter) = (s.registrations.get? r).map (·.charter)

theorem UsesOnly.trans {r : RegistrationId} {s t u : Store} (h : UsesOnly r s t)
    (k : UsesOnly r t u) : UsesOnly r s u :=
  ⟨k.1.trans h.1, k.2.trans h.2, k.3.trans h.3, k.4.trans h.4,
    fun r' hr => (k.5 r' hr).trans (h.5 r' hr), k.6.trans h.6⟩

theorem usesOnly_of_eq {s t : Store} (r : RegistrationId) (hb : t.board = s.board)
    (hd : t.components = s.components) (hc : t.classes = s.classes) (hh : t.hooks = s.hooks)
    (hr : t.registrations = s.registrations) : UsesOnly r s t :=
  ⟨hb, hd, hc, hh, fun _ _ => by rw [hr], by rw [hr]⟩

theorem usesOnly_updateRegistration {s : Store} {r : RegistrationId}
    {f : Registration → Registration}
    (hf : (f (s.registration r)).charter = (s.registration r).charter) :
    UsesOnly r s (s.updateRegistration r f) := by
  refine ⟨rfl, rfl, rfl, rfl, fun r' hr => ?_, ?_⟩
  · rw [updateRegistration, Roster.get?_update, if_neg fun h => hr h.symm]
  · rw [updateRegistration, Roster.get?_update, if_pos rfl]
    cases hg : s.registrations.get? r with
    | none => rfl
    | some g =>
      rw [registration, Roster.getD, hg, Option.getD_some] at hf
      simp [hf]

theorem UsesOnly.charters {r : RegistrationId} {s t : Store} (h : UsesOnly r s t)
    (r' : RegistrationId) :
    (t.registrations.get? r').map (·.charter) = (s.registrations.get? r').map (·.charter) := by
  by_cases hr : r' = r
  · exact hr ▸ h.charter
  · rw [h.others r' hr]

theorem UsesOnly.steady {r : RegistrationId} {s t : Store} (h : UsesOnly r s t) : Steady s t := by
  refine ⟨h.components, h.classes, fun r' => ?_⟩
  -- The policy is part of the charter.
  have hp := congrArg (Option.map Registration.policy) (h.charters r')
  rwa [Option.map_map, Option.map_map] at hp

/-- Nothing but quiet acts noted, and nothing moved. -/
def Quietly (s t : Store) : Prop := Notes Act.IsQuiet s t ∧ Steady s t

theorem Quietly.trans {s t u : Store} (h : Quietly s t) (k : Quietly t u) : Quietly s u :=
  ⟨h.1.trans k.1, h.2.trans _ _ _ k.2⟩

theorem quietly_of_eq {s t : Store} (ha : t.acts = s.acts) (hd : t.components = s.components)
    (hc : t.classes = s.classes) (hr : t.registrations = s.registrations) : Quietly s t :=
  ⟨notes_of_acts_eq ha, steady_of_eq hd hc hr⟩

theorem quietly_note {a : Act} (h : a.IsQuiet) (s : Store) : Quietly s (s.note a) :=
  ⟨notes_note h s, steady_of_eq rfl rfl rfl⟩

theorem quietly_measure (s : Store) (m : Meter) : Quietly s (s.measure m) := quietly_of_eq rfl rfl rfl rfl

theorem quietly_updateInstance (s : Store) (i : InstanceId) (f : Instance → Instance) :
    Quietly s (s.updateInstance i f) := quietly_of_eq rfl rfl rfl rfl

theorem quietly_updateRegistration {s : Store} {r : RegistrationId}
    {f : Registration → Registration}
    (hf : (f (s.registration r)).policy = (s.registration r).policy) :
    Quietly s (s.updateRegistration r f) := ⟨notes_of_acts_eq rfl, steady_updateRegistration hf⟩

/-- A relation that respects what is written of instances: acts, meters, new instances, and changes
that leave an instance with its class. -/
structure Bears (G : Store → Store → Prop) : Prop where
  refl : ∀ s, G s s
  trans : ∀ {s t u}, G s t → G t u → G s u
  note : ∀ (s : Store) {a : Act}, a.IsQuiet → G s (s.note a)
  measure : ∀ (s : Store) (m : Meter), G s (s.measure m)
  build : ∀ (s : Store) (a : Instance), G s { s with instances := s.instances.add a }
  handle : ∀ (s : Store) (i : InstanceId) {f : Instance → Instance}, (∀ a, (f a).cls = a.cls) →
    G s (s.updateInstance i f)

/-- A relation that respects what is written of a registration too: that its configuration is asked for,
and whatever leaves its charter and its configuration alone. -/
structure Permits (r : RegistrationId) (G : Store → Store → Prop) : Prop extends Bears G where
  register : ∀ (s : Store) {f : Registration → Registration}, (∀ g, (f g).charter = g.charter) →
    (∀ g, (f g).dossier = g.dossier) → G s (s.updateRegistration r f)
  configure : ∀ s : Store, G s (s.configure r).1

section

variable {r : RegistrationId} {G : Store → Store → Prop}

theorem Bears.drop (h : Bears G) (s : Store) (i : InstanceId) : G s (s.drop i) :=
  h.handle s i fun _ => rfl

theorem Bears.instantiate (h : Bears G) (s : Store) (r : RegistrationId) : G s (s.instantiate r).1 := by
  unfold Store.instantiate
  dsimp only
  split
  · exact h.trans (h.note s ⟨rfl, rfl⟩) (h.trans (h.note _ ⟨rfl, rfl⟩) (h.measure _ _))
  · refine h.trans ?_ (h.measure _ _)
    refine h.trans ?_ (h.note _ ⟨rfl, rfl⟩)
    exact h.trans (h.note s ⟨rfl, rfl⟩) (h.build _ _)

theorem Bears.share (h : Bears G) (r : RegistrationId) (s : Store) : G s (s.share r).1 := by
  unfold Store.share
  split
  · exact h.handle s _ fun _ => rfl
  · exact h.refl s

variable (h : Permits r G)
include h

theorem Permits.setLocked (s : Store) (locked : Bool) : G s (s.setLocked r locked) :=
  h.register s (fun _ => rfl) fun _ => rfl

theorem Permits.releaseSlot (s : Store) : G s (s.releaseSlot r) :=
  h.register s Registration.charter_released Registration.dossier_released

theorem Permits.giveBack (s : Store) (i : InstanceId) : G s (s.giveBack r i) :=
  h.trans (h.drop s i) (h.releaseSlot _)

theorem Permits.publish (s : Store) (i : InstanceId) : G s (s.publish r i) := by
  refine h.trans ?_ (h.handle _ i fun _ => rfl)
  exact h.register s (fun _ => rfl) fun _ => rfl

end

theorem permits_usesOnly (r : RegistrationId) : Permits r (UsesOnly r) where
  refl _ := usesOnly_of_eq r rfl rfl rfl rfl rfl
  trans := UsesOnly.trans
  note _ _ _ := usesOnly_of_eq r rfl rfl rfl rfl rfl
  measure _ _ := usesOnly_of_eq r rfl rfl rfl rfl rfl
  build _ _ := usesOnly_of_eq r rfl rfl rfl rfl rfl
  handle _ _ _ _ := usesOnly_of_eq r rfl rfl rfl rfl rfl
  register _ _ hf _ := usesOnly_updateRegistration (hf _)
  configure s := usesOnly_updateRegistration (s.registration r).charter_config

theorem permits_quietly (r : RegistrationId) : Permits r Quietly where
  refl _ := quietly_of_eq rfl rfl rfl rfl
  trans := Quietly.trans
  note s _ h := quietly_note h s
  measure := quietly_measure
  build _ _ := quietly_of_eq rfl rfl rfl rfl
  handle s i f _ := quietly_updateInstance s i f
  register _ _ hf _ := quietly_updateRegistration (Registration.policy_eq_of_charter_eq (hf _))
  configure s := quietly_updateRegistration (Registration.policy_eq_of_charter_eq (s.registration r).charter_config)

theorem quietly_setLocked (s : Store) (r : RegistrationId) (locked : Bool) :
    Quietly s (s.setLocked r locked) := (permits_quietly r).setLocked s locked

theorem quietly_releaseSlot (s : Store) (r : RegistrationId) : Quietly s (s.releaseSlot r) :=
  (permits_quietly r).releaseSlot s

theorem quietly_drop (s : Store) (i : InstanceId) : Quietly s (s.drop i) :=
  quietly_updateInstance s i _

theorem quietly_giveBack (s : Store) (r : RegistrationId) (i : InstanceId) :
    Quietly s (s.giveBack r i) := (permits_quietly r).giveBack s i

theorem quietly_publish (s : Store) (r : RegistrationId) (i : InstanceId) :
    Quietly s (s.publish r i) := (permits_quietly r).publish s i

theorem quietly_configure (s : Store) (r : RegistrationId) : Quietly s (s.configure r).1 :=
  (permits_quietly r).configure s

theorem quietly_instantiate (s : Store) (r : RegistrationId) : Quietly s (s.instantiate r).1 :=
  (permits_quietly r).instantiate s r

end Store

/-- What a write noted. -/
def notedBy (w : Store × Store) : List Act := w.2.acts.take (w.2.acts.length - w.1.acts.length)

/-- What the writes of a run noted. -/
def noted (own : List (Store × Store)) : List Act := own.flatMap notedBy

theorem notedBy_eq {s t : Store} {new : List Act} (h : t.acts = new ++ s.acts) :
    notedBy (s, t) = new := by
  simp [notedBy, h]

@[simp] theorem noted_nil : noted [] = [] := rfl

@[simp] theorem noted_cons (w : Store × Store) (own : List (Store × Store)) :
    noted (w :: own) = notedBy w ++ noted own := rfl

@[simp] theorem noted_append (own own' : List (Store × Store)) :
    noted (own ++ own') = noted own ++ noted own' := List.flatMap_append ..

theorem noted_note (s : Store) (a : Act) : noted [(s, s.note a)] = [a] := by
  rw [noted_cons, noted_nil, List.append_nil]
  exact notedBy_eq rfl

theorem mem_noted_of_note {w : Store × Store} {own : List (Store × Store)} {a : Act} (hw : w ∈ own)
    (hn : w.2 = w.1.note a) : a ∈ noted own := by
  refine List.mem_flatMap.2 ⟨w, hw, ?_⟩
  rw [show w = (w.1, w.2) from rfl, hn, notedBy_eq (show _ = [a] ++ w.1.acts from rfl)]
  exact List.mem_singleton_self a

/-- How often a run starts a `process`. -/
def processings (own : List (Store × Store)) : Nat := (noted own).countP Act.isProcessing

/-- How often a run asks a hook. -/
def questions (own : List (Store × Store)) : Nat := (noted own).countP Act.isQuestion

@[simp] theorem processings_nil : processings [] = 0 := rfl

@[simp] theorem questions_nil : questions [] = 0 := rfl

@[simp] theorem processings_append (own own' : List (Store × Store)) :
    processings (own ++ own') = processings own + processings own' := by
  simp [processings]

@[simp] theorem questions_append (own own' : List (Store × Store)) :
    questions (own ++ own') = questions own + questions own' := by
  simp [questions]

/-- A run of quiet writes only. -/
def IsQuiet (own : List (Store × Store)) : Prop := processings own = 0 ∧ questions own = 0

theorem IsQuiet.append {own own' : List (Store × Store)} (h : IsQuiet own) (k : IsQuiet own') :
    IsQuiet (own ++ own') := by
  constructor
  · rw [processings_append, h.1, k.1]
  · rw [questions_append, h.2, k.2]

theorem isQuiet_of_notes {own : List (Store × Store)}
    (h : ∀ w ∈ own, Store.Notes Act.IsQuiet w.1 w.2) : IsQuiet own := by
  have hq : ∀ a ∈ noted own, a.IsQuiet := by
    intro a ha
    obtain ⟨w, hw, haw⟩ := List.mem_flatMap.1 ha
    obtain ⟨new, hn, hp⟩ := h w hw
    rw [show w = (w.1, w.2) from rfl, notedBy_eq hn] at haw
    exact hp a haw
  constructor
  · exact List.countP_eq_zero.2 fun a ha => by simp [(hq a ha).1]
  · exact List.countP_eq_zero.2 fun a ha => by simp [(hq a ha).2]

/-! ## The stages of a handler -/

section

variable {rely : Store → Store → Prop}

/-- To answer a request changes nothing but what is on record of the remote endpoints. -/
theorem perform_state (s : Store) (cls : ClassId) (i : InstanceId) (request response : Payload) :
    ∃ remotes, (s.perform cls i request response).1 = { s with remotes } := by
  unfold Store.perform Store.forward
  split
  · exact ⟨s.remotes, rfl⟩
  · split
    · split
      · exact ⟨s.remotes, rfl⟩
      · exact ⟨_, rfl⟩
    · exact ⟨s.remotes, rfl⟩
    · exact ⟨s.remotes, rfl⟩

theorem acts_perform (s : Store) (cls : ClassId) (i : InstanceId) (request response : Payload) :
    (s.perform cls i request response).1.acts = s.acts := by
  obtain ⟨remotes, hr⟩ := perform_state s cls i request response
  rw [hr]

section

variable {r : RegistrationId} {G : Store → Store → Prop}

theorem bears_destroy (h : Store.Bears G) (i : InstanceId) : Guarantees rely G (destroy i) := by
  refine Guarantees.bind (guarantees_act fun s => h.note s ⟨rfl, rfl⟩) fun cls => ?_
  exact (guarantees_yield _).bind fun _ => guarantees_modify fun s => h.note s ⟨rfl, rfl⟩

theorem bears_retire (h : Store.Bears G) (r : RegistrationId) (i : InstanceId) :
    Guarantees rely G (retire r i) := by
  refine (guarantees_waitUntil _ _).bind fun _ => guarantees_get.bind fun s => ?_
  have hdrop : Guarantees rely G (.modify (·.drop i) : Work Unit) := guarantees_modify fun s => h.drop s i
  split
  · exact (bears_destroy h i).bind fun _ => hdrop
  · exact hdrop

variable (h : Store.Permits r G)
include h

theorem permits_setUp (i : InstanceId) : Guarantees rely G (setUp r i) := by
  refine Guarantees.bind (guarantees_act fun s => ?_) fun cls => ?_
  · refine h.trans (h.configure s) (h.trans ?_ (h.note _ ⟨rfl, rfl⟩))
    exact h.handle _ i fun _ => rfl
  · exact (guarantees_yield _).bind fun _ => guarantees_act fun s => h.note s ⟨rfl, rfl⟩

theorem permits_place (i : InstanceId) (outcome : Except String Unit) :
    Guarantees rely G (place r i outcome) := by
  cases outcome with
  | error cause =>
    refine guarantees_act fun s => h.trans ?_ (h.measure _ _)
    exact h.trans (h.drop s i) (h.setLocked _ _)
  | ok => exact Guarantees.bind (guarantees_modify fun s => h.publish s i) fun _ => guarantees_pure _

theorem permits_buildShared : Guarantees rely G (buildShared r) := by
  refine Guarantees.bind (guarantees_act fun s => h.instantiate s r) fun built => ?_
  cases built with
  | error f =>
    exact Guarantees.bind (guarantees_modify fun s => h.setLocked s _) fun _ => guarantees_pure _
  | ok i => exact (permits_setUp h i).bind fun outcome => permits_place h i outcome

theorem permits_shareOrBuild : Guarantees rely G (shareOrBuild r) := by
  refine (guarantees_waitUntil _ _).bind fun _ => Guarantees.bind (guarantees_act (h.share r)) fun found => ?_
  cases found with
  | some i => exact guarantees_pure _
  | none =>
    exact Guarantees.bind (guarantees_modify fun s => h.setLocked s _) fun _ => permits_buildShared h

theorem permits_obtainShared : Guarantees rely G (obtainShared r) := by
  refine (guarantees_waitUntil _ _).bind fun _ => Guarantees.bind (guarantees_act (h.share r)) fun found => ?_
  cases found with
  | some i => exact guarantees_pure _
  | none => exact permits_shareOrBuild h

theorem permits_deliver (got : Except Fault InstanceId) : Guarantees rely G (deliver r got) := by
  cases got with
  | ok i => exact guarantees_pure _
  | error f =>
    exact Guarantees.bind (guarantees_modify fun s => h.releaseSlot s) fun _ => guarantees_pure _

theorem permits_createHandler : Guarantees rely G (createHandler r) := by
  refine Guarantees.bind (guarantees_act fun s => h.register s (fun _ => rfl) fun _ => rfl) fun shares => ?_
  refine Guarantees.bind ?_ fun got => permits_deliver h got
  cases shares with
  | true => exact permits_obtainShared h
  | false => exact guarantees_act fun s => h.instantiate s r

theorem permits_prepare (i : InstanceId) (shares : Bool) : Guarantees rely G (prepare r i shares) := by
  cases shares with
  | true => exact guarantees_pure _
  | false =>
    refine (permits_setUp h i).bind fun outcome => ?_
    cases outcome with
    | ok => exact guarantees_pure _
    | error cause => exact guarantees_act fun s => h.measure s _

theorem permits_finish (i : InstanceId) (handler : String) (e : RequestEvent)
    (outcome : Except String Unit) : Guarantees rely G (finish r i handler e outcome) := by
  refine Guarantees.bind (guarantees_modify fun s => h.giveBack s i) fun _ => ?_
  cases outcome with
  | ok => exact guarantees_pure _
  | error cause =>
    exact Guarantees.bind (guarantees_modify fun s => h.measure s _) fun _ => guarantees_pure _

theorem permits_teardown : Guarantees rely G (teardown r) := by
  refine (guarantees_waitUntil _ _).bind fun _ => ?_
  refine Guarantees.bind (guarantees_act fun s => h.register s (fun _ => rfl) fun _ => rfl) fun taken => ?_
  cases taken with
  | none => exact guarantees_pure _
  | some i => exact bears_retire h.toBears r i

theorem permits_preload : Guarantees rely G (preload r) := by
  refine guarantees_get.bind fun s => ?_
  split
  · refine (permits_createHandler h).bind fun got => ?_
    cases got with
    | error f => exact guarantees_pure _
    | ok i =>
      exact Guarantees.bind (guarantees_modify fun s => h.giveBack s i) fun _ => guarantees_pure _
  · exact guarantees_pure _

end

theorem guarantees_linger {G : Store → Store → Prop} (h : ∀ s gate, G s (s.takeTicket gate).1) (cls : ClassId) :
    Guarantees rely G (linger cls) := by
  refine guarantees_get.bind fun s => ?_
  split
  · exact Guarantees.bind (guarantees_act fun s => h s _) fun _ => guarantees_waitUntil _ _
  · exact guarantees_yield _

/-- To process an event changes nothing of what an event meets on its way. -/
theorem guarantees_process {G : Store → Store → Prop}
    (h : ∀ {s t : Store}, t.board = s.board → t.components = s.components → t.classes = s.classes →
      t.hooks = s.hooks → t.registrations = s.registrations → G s t)
    (i : InstanceId) (e : RequestEvent) : Guarantees rely G (process i e) := by
  refine Guarantees.bind (guarantees_act fun s => h rfl rfl rfl rfl rfl) fun cls => ?_
  refine (guarantees_linger (fun s gate => h rfl rfl rfl rfl rfl) cls).bind fun _ => guarantees_act fun s => ?_
  obtain ⟨remotes, hr⟩ := perform_state s cls i e.request e.response
  show G s (Store.note (s.perform cls i e.request e.response).1 _)
  rw [hr]
  exact h rfl rfl rfl rfl rfl

theorem permits_invoke {r : RegistrationId} {G : Store → Store → Prop} (h : Store.Permits r G)
    (hprocess : ∀ i e, Guarantees rely G (process i e)) (e : RequestEvent) :
    Guarantees rely G (invoke r e) := by
  refine (permits_createHandler h).bind fun got => ?_
  cases got with
  | error f => exact guarantees_pure _
  | ok i =>
    refine guarantees_get.bind fun s => (permits_prepare h i _).bind fun ready => ?_
    cases ready with
    | error f => exact Guarantees.bind (guarantees_modify fun s => h.giveBack s i) fun _ => guarantees_pure _
    | ok =>
      refine (hprocess i e).bind fun ran => ?_
      dsimp only
      split
      · exact (bears_destroy h.toBears i).bind fun _ => permits_finish h i _ _ _
      · exact permits_finish h i _ _ _

/-- Whatever is asked of a handler, only what is in use of it changes. -/
theorem usesOnly_invoke (r : RegistrationId) (e : RequestEvent) :
    Guarantees rely (Store.UsesOnly r) (invoke r e) :=
  permits_invoke (Store.permits_usesOnly r) (guarantees_process (Store.usesOnly_of_eq r)) e

theorem usesOnly_preload (r : RegistrationId) : Guarantees rely (Store.UsesOnly r) (preload r) :=
  permits_preload (Store.permits_usesOnly r)

theorem usesOnly_teardown (r : RegistrationId) : Guarantees rely (Store.UsesOnly r) (teardown r) :=
  permits_teardown (Store.permits_usesOnly r)

end

/-! ## Quiet stages -/

section

variable {rely : Store → Store → Prop} {α : Type}

/-- Every own write of the activity is quiet. -/
abbrev Quiet (rely : Store → Store → Prop) (x : Work α) : Prop :=
  Guarantees rely Store.Quietly x

theorem Quiet.ensures {x : Work α} (h : Quiet rely x) (s : Store) :
    Ensures rely x (fun own _ _ => IsQuiet own) s :=
  (h s).mono fun _ _ _ hw => isQuiet_of_notes fun w hm => (hw w hm).1

theorem quiet_setUp (r : RegistrationId) (i : InstanceId) : Quiet rely (setUp r i) :=
  permits_setUp (Store.permits_quietly r) i

theorem quiet_destroy (i : InstanceId) : Quiet rely (destroy i) :=
  bears_destroy (Store.permits_quietly 0).toBears i

theorem quiet_linger (cls : ClassId) : Quiet rely (linger cls) :=
  guarantees_linger (fun _ _ => Store.quietly_of_eq rfl rfl rfl rfl) cls

theorem quiet_createHandler (r : RegistrationId) : Quiet rely (createHandler r) :=
  permits_createHandler (Store.permits_quietly r)

theorem quiet_prepare (r : RegistrationId) (i : InstanceId) (shares : Bool) :
    Quiet rely (prepare r i shares) := permits_prepare (Store.permits_quietly r) i shares

theorem quiet_finish (r : RegistrationId) (i : InstanceId) (handler : String) (e : RequestEvent)
    (outcome : Except String Unit) : Quiet rely (finish r i handler e outcome) :=
  permits_finish (Store.permits_quietly r) i handler e outcome

theorem quiet_teardown (r : RegistrationId) : Quiet rely (teardown r) :=
  permits_teardown (Store.permits_quietly r)

theorem quiet_preload (r : RegistrationId) : Quiet rely (preload r) :=
  permits_preload (Store.permits_quietly r)

end

end Switchboard.Container
