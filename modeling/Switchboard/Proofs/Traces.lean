import Mathlib.Logic.Relation
import Switchboard.Proofs.Housing

/-!
# Traces of instances

What was noted about an instance, and when that is all that ever will be. An instance is loose
once it is built and in no registration's slot. Whatever is asked of a context works on instances
that are in a slot or that it builds for itself, so loose ones are left alone: `Since s₀ s` says
that a store comes after `s₀` with the traces of all that were loose there, and every operation
keeps it (`Advance.since`). The stores that arise from an empty one are `Tidy`, which is what the
traces of new instances rest on.
-/

namespace Switchboard

/-- The snapshot that is kept, if there is one, says what a handler made now is initialized with. -/
def Registration.IsCurrent (g : Registration) : Prop :=
  ∀ snapshot, g.cached = some snapshot → snapshot.config = g.currentConfig

theorem Registration.isCurrent_of_none {g : Registration} (h : g.cached = none) : g.IsCurrent := by
  intro snapshot hs
  rw [h] at hs
  cases hs

theorem Registration.IsCurrent.config {g : Registration} (h : g.IsCurrent) :
    g.config.2.config = g.currentConfig ∧ g.config.1.IsCurrent := by
  cases hc : g.cached with
  | none =>
    rw [config_of_none hc]
    refine ⟨rfl, fun snapshot hs => ?_⟩
    rw [← Option.some.inj hs]
    rfl
  | some snapshot => exact config_of_some hc ▸ ⟨h snapshot hc, h⟩

theorem Registration.IsCurrent.released {g : Registration} (h : g.IsCurrent) : g.released.IsCurrent := by
  unfold Registration.released
  split
  · exact h
  · exact h

namespace Container

open Activity
open Lifecycle (Phase runPhase runSingle)

/-- The instance that an act is about. -/
def Act.about? : Act → Option InstanceId
  | constructed _ (.ok i) => some i
  | initializing _ i _ => some i
  | initialized _ i _ => some i
  | processing _ i => some i
  | processed _ i _ => some i
  | destroying _ i => some i
  | destroyed _ i _ => some i
  | _ => none

namespace Store

/-- What was noted about an instance, the oldest first. -/
def trail (s : Store) (i : InstanceId) : List Act := s.acts.reverse.filter (·.about? = some i)

/-- The snapshots that are kept are current; what acts are about and what slots hold is there. -/
structure Tidy (s : Store) : Prop where
  current : ∀ r, (s.registration r).IsCurrent
  known : ∀ a ∈ s.acts, ∀ i, a.about? = some i → i < s.instances.size
  filled : ∀ r i, (s.registration r).shared = some i → i < s.instances.size

/-- Built, and in no slot. -/
def Loose (s : Store) (i : InstanceId) : Prop :=
  i < s.instances.size ∧ ∀ r, (s.registration r).shared ≠ some i

/-- Comes after `s₀`, with what was loose there as it was. -/
structure Since (s₀ s : Store) : Prop where
  tidy : s.Tidy
  size : s₀.instances.size ≤ s.instances.size
  loose : ∀ i, s₀.Loose i → s.Loose i ∧ s.trail i = s₀.trail i

/-- An instance that is not among those left alone. -/
def Usable (s₀ : Store) (i : InstanceId) (s : Store) : Prop := i < s.instances.size ∧ ¬ s₀.Loose i

section

variable {s₀ s t u : Store} {r : RegistrationId} {i : InstanceId}

theorem Since.refl (h : s.Tidy) : s.Since s := ⟨h, Nat.le_refl _, fun _ hi => ⟨hi, rfl⟩⟩

theorem Usable.mono (h : s₀.Usable i s) (hsize : s.instances.size ≤ t.instances.size) : s₀.Usable i t :=
  ⟨Nat.lt_of_lt_of_le h.1 hsize, h.2⟩

theorem trail_append {new : List Act} (h : t.acts = new ++ s.acts) (i : InstanceId) :
    t.trail i = s.trail i ++ new.reverse.filter (·.about? = some i) := by
  rw [trail, h, List.reverse_append, List.filter_append, trail]

theorem Since.filled (h : s₀.Since s) (hr : (s.registration r).shared = some i) : s₀.Usable i s :=
  ⟨h.tidy.filled r i hr, fun hi => (h.loose i hi).1.2 r hr⟩

/-- A step that notes nothing about the instances left alone and puts none of them into a slot. -/
theorem Since.step (h : s₀.Since s) (hsize : s.instances.size ≤ t.instances.size)
    (hnotes : Notes (fun a => ∀ i, a.about? = some i → s₀.Usable i t) s t)
    (hcurrent : ∀ r, (t.registration r).IsCurrent)
    (hfilled : ∀ r i, (t.registration r).shared = some i → s₀.Usable i t) : s₀.Since t := by
  obtain ⟨new, hacts, hnew⟩ := hnotes
  have hknown : ∀ a ∈ t.acts, ∀ i, a.about? = some i → i < t.instances.size := by
    rw [hacts]
    intro a ha i hi
    rcases List.mem_append.1 ha with ha | ha
    · exact (hnew a ha i hi).1
    · exact Nat.lt_of_lt_of_le (h.tidy.known a ha i hi) hsize
  have htidy : t.Tidy := ⟨hcurrent, hknown, fun r i hr => (hfilled r i hr).1⟩
  refine ⟨htidy, Nat.le_trans h.size hsize, fun i hi => ⟨?_, ?_⟩⟩
  · exact ⟨Nat.lt_of_lt_of_le (h.loose i hi).1.1 hsize, fun r hr => (hfilled r i hr).2 hi⟩
  · have hnone : new.reverse.filter (·.about? = some i) = [] := by
      refine List.filter_eq_nil_iff.2 fun a ha hb => ?_
      exact (hnew a (List.mem_reverse.1 ha) i (of_decide_eq_true hb)).2 hi
    rw [trail_append hacts, hnone, List.append_nil]
    exact (h.loose i hi).2

/-! ## Single writes -/

/-- Neither the registrations nor what was noted has changed. -/
theorem Since.congr (h : s₀.Since s) (hr : t.registrations = s.registrations)
    (hi : t.instances.size = s.instances.size) (ha : t.acts = s.acts) : s₀.Since t := by
  have hreg : ∀ r, t.registration r = s.registration r := fun r => by rw [registration, hr, registration]
  refine h.step (Nat.le_of_eq hi.symm) (notes_of_acts_eq ha) (fun r => ?_) fun r i hs => ?_
  · rw [hreg]
    exact h.tidy.current r
  · rw [hreg] at hs
    exact (h.filled hs).mono (Nat.le_of_eq hi.symm)

theorem Since.beyond (h : s₀.Since s) (hb : Beyond s t) : s₀.Since t := by
  obtain ⟨board, gates, rfl⟩ := hb
  exact h.congr rfl rfl rfl

theorem Usable.beyond (h : s₀.Usable i s) (hb : Beyond s t) : s₀.Usable i t := by
  obtain ⟨board, gates, rfl⟩ := hb
  exact h

theorem Since.note {a : Act} (h : s₀.Since s) (ha : ∀ i, a.about? = some i → s₀.Usable i s) :
    s₀.Since (s.note a) :=
  have hnotes : Notes (fun a => ∀ i, a.about? = some i → s₀.Usable i s) s (s.note a) := notes_note ha s
  h.step (Nat.le_refl _) hnotes h.tidy.current fun _ _ hr => h.filled hr

theorem Since.measure (h : s₀.Since s) (m : Meter) : s₀.Since (s.measure m) := h.congr rfl rfl rfl

theorem Since.updateDesk (h : s₀.Since s) (d : ComponentId) (f : Desk → Desk) :
    s₀.Since (s.updateDesk d f) := h.congr rfl rfl rfl

theorem Usable.note (h : s₀.Usable i s) (a : Act) : s₀.Usable i (s.note a) := h

/-- An act about an instance that is not left alone. -/
theorem Since.note_about {a : Act} (h : s₀.Since s) (hi : s₀.Usable i s) (ha : a.about? = some i) :
    s₀.Since (s.note a) :=
  h.note fun _ hj => Option.some.inj (ha.symm.trans hj) ▸ hi

theorem Since.updateInstance (h : s₀.Since s) (i : InstanceId) (f : Instance → Instance) :
    s₀.Since (s.updateInstance i f) := h.congr rfl (Roster.size_update ..) rfl

theorem Usable.updateInstance {j : InstanceId} (h : s₀.Usable i s) (f : Instance → Instance) :
    s₀.Usable i (s.updateInstance j f) := h.mono (Nat.le_of_eq (Roster.size_update ..).symm)

theorem Since.updateRegistration {f : Registration → Registration} (h : s₀.Since s)
    (hcurrent : (f (s.registration r)).IsCurrent)
    (hfilled : ∀ i, (f (s.registration r)).shared = some i → s₀.Usable i s) :
    s₀.Since (s.updateRegistration r f) := by
  refine h.step (Nat.le_refl _) (notes_of_acts_eq rfl) (fun r' => ?_) fun r' i hr => ?_
  · rw [registration_updateRegistration]
    split
    · rename_i hr'
      exact hr'.1 ▸ hcurrent
    · exact h.tidy.current r'
  · rw [registration_updateRegistration] at hr
    split at hr
    · rename_i hr'
      exact hfilled i (hr'.1 ▸ hr)
    · exact h.filled hr

/-- What is written of a registration leaves its slot and its configuration alone. -/
theorem Since.useRegistration {f : Registration → Registration} (h : s₀.Since s)
    (hcurrent : ∀ g : Registration, g.IsCurrent → (f g).IsCurrent)
    (hshared : ∀ g, (f g).shared = g.shared) : s₀.Since (s.updateRegistration r f) :=
  h.updateRegistration (hcurrent _ (h.tidy.current r)) fun _ hi => h.filled ((hshared _).symm.trans hi)

theorem Since.setLocked (h : s₀.Since s) (r : RegistrationId) (locked : Bool) :
    s₀.Since (s.setLocked r locked) := h.useRegistration (fun _ hg => hg) fun _ => rfl

theorem Since.releaseSlot (h : s₀.Since s) (r : RegistrationId) : s₀.Since (s.releaseSlot r) :=
  h.useRegistration (fun _ => .released) fun g => g.shared_released

theorem Since.giveBack (h : s₀.Since s) (r : RegistrationId) (i : InstanceId) : s₀.Since (s.giveBack r i) :=
  (h.updateInstance i _).releaseSlot r

theorem Since.configure (h : s₀.Since s) (r : RegistrationId) : s₀.Since (s.configure r).1 :=
  h.updateRegistration (h.tidy.current r).config.2 fun _ hi =>
    h.filled ((s.registration r).shared_config.symm.trans hi)

theorem Usable.configure (h : s₀.Usable i s) (r : RegistrationId) : s₀.Usable i (s.configure r).1 := h

theorem Since.publish (h : s₀.Since s) (hi : s₀.Usable i s) (r : RegistrationId) :
    s₀.Since (s.publish r i) := by
  refine Since.updateInstance (h.updateRegistration (h.tidy.current r) fun j hj => ?_) i _
  rw [← Option.some.inj hj]
  exact hi

theorem Since.share (h : s₀.Since s) (r : RegistrationId) :
    s₀.Since (s.share r).1 ∧ ∀ i, (s.share r).2 = some i → s₀.Usable i (s.share r).1 := by
  unfold Store.share
  split
  · rename_i j hj
    refine ⟨h.updateInstance j _, fun i hi => ?_⟩
    rw [← Option.some.inj hi]
    exact (h.filled hj).updateInstance _
  · exact ⟨h, by simp⟩

theorem Since.takeShared (h : s₀.Since s) (r : RegistrationId) : s₀.Since (s.takeShared r).1 :=
  h.updateRegistration (h.tidy.current r) (by simp)

/-- A new instance is loose in no earlier store. -/
theorem Since.instantiate (h : s₀.Since s) (r : RegistrationId) :
    s₀.Since (s.instantiate r).1 ∧ ∀ i, (s.instantiate r).2 = .ok i → s₀.Usable i (s.instantiate r).1 := by
  have hbegun := h.note (a := .constructing (s.registration r).cls (s.runs (s.registration r).cls .construct))
    (by simp [Act.about?])
  have hnew : ∀ t : Store, t.instances.size = s.instances.size + 1 → s₀.Usable s.instances.size t :=
    fun t ht => ⟨ht ▸ Nat.lt_succ_self _, fun hl => Nat.not_lt_of_le h.size hl.1⟩
  unfold Store.instantiate
  dsimp only
  split
  · refine ⟨Since.congr (hbegun.note (a := .constructed _ _) ?_) rfl rfl rfl, by simp⟩
    simp [Act.about?]
  · refine ⟨?_, fun i hi => ?_⟩
    · have hgrows : ∀ a, s.instances.size ≤ (s.instances.add a).size := fun a =>
        Nat.le_trans (Nat.le_succ _) (Nat.le_of_eq (s.instances.size_add a).symm)
      refine hbegun.step (hgrows _) ⟨[_], rfl, ?_⟩ h.tidy.current fun r' i hr => (h.filled hr).mono (hgrows _)
      rintro a ha i hi
      rw [List.mem_singleton.1 ha] at hi
      rw [← Option.some.inj hi]
      exact hnew _ (Roster.size_add ..)
    · rw [← Except.ok.inj hi]
      exact hnew _ (Roster.size_add ..)

end

end Store

section

variable {s₀ s t : Store} {r : RegistrationId} {i : InstanceId}

/-! ## The stages of a handler -/

theorem setUp_since (h : s₀.Since s) (hi : s₀.Usable i s) (r : RegistrationId) :
    Ensures Beyond (setUp r i) (fun _ _ t => s₀.Since t ∧ s₀.Usable i t) s := by
  simp only [setUp, runInit, ensures_bind, ensures_act, ensures_yield]
  intro u hu
  have hconfigured := hi.configure r
  have hbegun := (((h.configure r).updateInstance i _).note_about (hconfigured.updateInstance _) rfl).beyond hu
  have hiu := ((hconfigured.updateInstance _).note _).beyond hu
  exact ⟨hbegun.note_about hiu rfl, hiu⟩

theorem beyond_refl (s : Store) : Beyond s s := ⟨s.board, s.gates, rfl⟩

theorem Beyond.trans {u : Store} (h : Beyond s t) (k : Beyond t u) : Beyond s u := by
  obtain ⟨_, _, rfl⟩ := h
  obtain ⟨board, gates, rfl⟩ := k
  exact ⟨board, gates, rfl⟩

/-- To wait for a permit changes nothing but the gates. -/
theorem linger_beyond (cls : ClassId) (s : Store) :
    Ensures Beyond (linger cls) (fun _ _ t => Beyond s t) s := by
  simp only [linger, ensures_bind, ensures_get]
  split
  · simp only [passGate, ensures_bind, ensures_act, ensures_waitUntil]
    exact fun u hu _ => Beyond.trans ⟨s.board, _, rfl⟩ hu
  · simp only [ensures_yield]
    exact fun u hu => hu

theorem process_since (h : s₀.Since s) (hi : s₀.Usable i s) (e : RequestEvent) :
    Ensures Beyond (process i e) (fun _ _ t => s₀.Since t ∧ s₀.Usable i t) s := by
  simp only [process, ensures_bind, ensures_act]
  refine (linger_beyond _ _).mono fun _ _ u hu => ?_
  have hbegun := (h.note_about hi rfl).beyond hu
  have hiu := (hi.note _).beyond hu
  obtain ⟨remotes, hr⟩ := perform_state u (s.classOfInstance i) i e.request e.response
  rw [hr]
  exact ⟨Store.Since.note_about (hbegun.congr rfl rfl rfl) hiu rfl, hiu⟩

theorem destroy_since (h : s₀.Since s) (hi : s₀.Usable i s) :
    Ensures Beyond (destroy i) (fun _ _ t => s₀.Since t ∧ s₀.Usable i t) s := by
  simp only [destroy, runDestroy, ensures_bind, ensures_act, ensures_yield, ensures_modify]
  intro u hu
  have hbegun := (h.note_about hi rfl).beyond hu
  have hiu := (hi.note _).beyond hu
  exact ⟨hbegun.note_about hiu rfl, hiu⟩

/-! ## Obtaining -/

/-- What is obtained, if anything is, may be worked on. -/
def Obtains (s₀ : Store) (out : Except Fault InstanceId) (t : Store) : Prop :=
  s₀.Since t ∧ ∀ i, out = .ok i → s₀.Usable i t

theorem obtains_error (f : Fault) : Obtains s₀ (.error f) t ↔ s₀.Since t := by simp [Obtains]

theorem obtains_ok : Obtains s₀ (.ok i) t ↔ s₀.Since t ∧ s₀.Usable i t := by simp [Obtains]

theorem buildShared_obtains (h : s₀.Since s) (r : RegistrationId) :
    Ensures Beyond (buildShared r) (fun _ out t => Obtains s₀ out t) s := by
  simp only [buildShared, ensures_bind, ensures_act]
  obtain ⟨hbuilt, hnew⟩ := h.instantiate r
  split
  · simp only [ensures_bind, ensures_modify, ensures_pure]
    exact (obtains_error _).2 (hbuilt.setLocked r false)
  · rename_i i hi
    refine ensures_bind.2 ((setUp_since hbuilt (hnew i hi) r).mono fun _ out t ht => ?_)
    cases out with
    | error cause =>
      refine ensures_act.2 ((obtains_error _).2 ?_)
      exact ((ht.1.updateInstance i _).setLocked r false).measure _
    | ok =>
      simp only [place, ensures_bind, ensures_modify, ensures_pure]
      exact obtains_ok.2 ⟨ht.1.publish ht.2 r, ht.2.updateInstance (j := i) _⟩

theorem shareOrBuild_obtains (h : s₀.Since s) (r : RegistrationId) :
    Ensures Beyond (shareOrBuild r) (fun _ out t => Obtains s₀ out t) s := by
  simp only [shareOrBuild, ensures_bind, ensures_waitUntil, ensures_act]
  intro u hu _
  obtain ⟨hshared, hfound⟩ := (h.beyond hu).share r
  split
  · rename_i i hi
    exact ensures_pure.2 (obtains_ok.2 ⟨hshared, hfound i hi⟩)
  · simp only [ensures_bind, ensures_modify]
    exact (buildShared_obtains (hshared.setLocked r true) r).mono fun _ _ _ ht => ht

theorem obtainShared_obtains (h : s₀.Since s) (r : RegistrationId) :
    Ensures Beyond (obtainShared r) (fun _ out t => Obtains s₀ out t) s := by
  simp only [obtainShared, ensures_bind, ensures_waitUntil, ensures_act]
  intro u hu _
  obtain ⟨hshared, hfound⟩ := (h.beyond hu).share r
  split
  · rename_i i hi
    exact ensures_pure.2 (obtains_ok.2 ⟨hshared, hfound i hi⟩)
  · exact (shareOrBuild_obtains hshared r).mono fun _ _ _ ht => ht

theorem deliver_obtains {out : Except Fault InstanceId} (h : Obtains s₀ out s) (r : RegistrationId) :
    Ensures Beyond (deliver r out) (fun _ out t => Obtains s₀ out t) s := by
  cases out with
  | error f =>
    simp only [deliver, ensures_bind, ensures_modify, ensures_pure]
    exact (obtains_error f).2 (((obtains_error f).1 h).releaseSlot r)
  | ok i => exact ensures_pure.2 h

theorem createHandler_obtains (h : s₀.Since s) (r : RegistrationId) :
    Ensures Beyond (createHandler r) (fun _ out t => Obtains s₀ out t) s := by
  simp only [createHandler, ensures_bind, ensures_act]
  have hleased : s₀.Since (s.updateRegistration r fun g => { g with active := g.active + 1 }) :=
    h.useRegistration (fun _ hg => hg) fun _ => rfl
  split
  · exact (obtainShared_obtains hleased r).mono fun _ _ _ ht => deliver_obtains ht r
  · exact ensures_act.2 (deliver_obtains (hleased.instantiate r) r)

/-! ## Requests -/

theorem prepare_since (h : s₀.Since s) (hi : s₀.Usable i s) (r : RegistrationId) (shares : Bool) :
    Ensures Beyond (prepare r i shares) (fun _ _ t => s₀.Since t ∧ s₀.Usable i t) s := by
  cases shares with
  | true => exact ensures_pure.2 ⟨h, hi⟩
  | false =>
    refine ensures_bind.2 ((setUp_since h hi r).mono fun _ out t ht => ?_)
    cases out with
    | ok => exact ensures_pure.2 ht
    | error cause => exact ensures_act.2 ⟨ht.1.measure _, ht.2⟩

theorem finish_since (h : s₀.Since s) (r : RegistrationId) (i : InstanceId) (handler : String)
    (e : RequestEvent) (outcome : Except String Unit) :
    Ensures Beyond (finish r i handler e outcome) (fun _ _ t => s₀.Since t) s := by
  refine ensures_bind.2 (ensures_modify.2 ?_)
  cases outcome with
  | ok => exact ensures_pure.2 (h.giveBack r i)
  | error cause =>
    simp only [ensures_bind, ensures_modify, ensures_pure]
    exact (h.giveBack r i).measure _

theorem invoke_since (h : s₀.Since s) (r : RegistrationId) (e : RequestEvent) :
    Ensures Beyond (invoke r e) (fun _ _ t => s₀.Since t) s := by
  refine ensures_bind.2 ((createHandler_obtains h r).mono fun _ got u hu => ?_)
  cases got with
  | error f => exact ensures_pure.2 ((obtains_error f).1 hu)
  | ok i =>
    obtain ⟨hu, hi⟩ := obtains_ok.1 hu
    refine ensures_bind.2 (ensures_get.2 (ensures_bind.2 ?_))
    refine (prepare_since hu hi r _).mono fun _ ready v hv => ?_
    cases ready with
    | error f =>
      simp only [ensures_bind, ensures_modify, ensures_pure]
      exact hv.1.giveBack r i
    | ok =>
      refine ensures_bind.2 ((process_since hv.1 hv.2 e).mono fun _ ran w hw => ?_)
      dsimp only
      split
      · exact ensures_bind.2 ((destroy_since hw.1 hw.2).mono fun _ _ x hx => finish_since hx.1 r i _ _ _)
      · exact finish_since hw.1 r i _ _ _

theorem consult_since (h : s₀.Since s) (g : Registration) (e : RequestEvent) :
    Ensures Beyond (consult g e) (fun _ _ t => s₀.Since t) s := by
  unfold consult
  cases g.hook with
  | none => exact ensures_pure.2 h
  | some hook =>
    simp only [ensures_bind, ensures_act, ensures_yield]
    intro u hu
    have hasked := (h.note (a := .asked hook g.name _) (by simp [Act.about?])).beyond hu
    split
    · exact ensures_pure.2 hasked
    · simp only [refuse, ensures_bind, ensures_act, ensures_yield]
      intro v hv
      have hrefused := (hasked.note (a := .refused hook g.name) (by simp [Act.about?])).beyond hv
      split
      · exact ensures_pure.2 hrefused
      · exact ensures_pure.2 hrefused

theorem dispatchContext_since (h : s₀.Since s) (d : ComponentId) (e : RequestEvent) :
    Ensures Beyond (dispatchContext d e) (fun _ _ t => s₀.Since t) s := by
  refine ensures_bind.2 (ensures_get.2 ?_)
  split
  · exact ensures_pure.2 h
  split
  · exact ensures_pure.2 h
  dsimp only
  split
  · exact ensures_pure.2 h
  split
  · refine ensures_bind.2 ((consult_since h _ e).mono fun _ out u hu => ?_)
    split
    · exact ensures_pure.2 hu
    · exact ensures_pure.2 hu
    · exact invoke_since hu _ _
  · exact invoke_since h _ _

theorem offer_since {dispatch : ComponentId → RequestEvent → Work Handled}
    (hdispatch : ∀ c e u, s₀.Since u → Ensures Beyond (dispatch c e) (fun _ _ t => s₀.Since t) u)
    (cs : List ComponentId) (h : s₀.Since s) (e : RequestEvent) :
    Ensures Beyond (offer dispatch cs e) (fun _ _ t => s₀.Since t) s := by
  induction cs generalizing s e with
  | nil => exact ensures_pure.2 h
  | cons c cs ih =>
    refine ensures_bind.2 ((hdispatch c e s h).mono fun _ out u hu => ?_)
    split
    · exact ensures_pure.2 hu
    · split
      · exact ensures_pure.2 hu
      · exact ih hu _

theorem dispatchService_since (h : s₀.Since s) (c : ComponentId) (e : RequestEvent) :
    Ensures Beyond (dispatchService c e) (fun _ _ t => s₀.Since t) s := by
  refine ensures_bind.2 (ensures_get.2 ?_)
  split
  · exact dispatchContext_since h _ e
  · exact ensures_pure.2 h

theorem dispatchServer_since (h : s₀.Since s) (c : ComponentId) (e : RequestEvent) :
    Ensures Beyond (dispatchServer c e) (fun _ _ t => s₀.Since t) s := by
  refine ensures_bind.2 (ensures_get.2 (ensures_bind.2 ?_))
  exact (offer_since (fun c e _ hu => dispatchService_since hu c e) _ h e).mono fun _ _ _ ht => ensures_pure.2 ht

theorem dispatch_since (h : s₀.Since s) (c : ComponentId) (e : RequestEvent) :
    Ensures Beyond (dispatch c e) (fun _ _ t => s₀.Since t) s := by
  refine ensures_bind.2 (ensures_get.2 ?_)
  split
  · refine ensures_bind.2 (ensures_modify.2 (ensures_bind.2 (ensures_get.2 (ensures_bind.2 ?_))))
    refine (offer_since (fun c e _ hu => dispatchServer_since hu c e) _ (h.measure _) e).mono
      fun _ out u hu => ?_
    split
    · exact ensures_pure.2 hu
    · exact ensures_pure.2 hu
    · exact ensures_bind.2 (ensures_modify.2 (ensures_pure.2 (hu.measure _)))
  · exact dispatchServer_since h c e
  · exact dispatchService_since h c e
  · exact dispatchContext_since h c e

/-! ## Teardown and preloading -/

theorem retire_since (h : s₀.Since s) (hi : s₀.Usable i s) (r : RegistrationId) :
    Ensures Beyond (retire r i) (fun _ _ t => s₀.Since t) s := by
  simp only [retire, ensures_bind, ensures_waitUntil, ensures_get]
  intro u hu _
  split
  · refine ensures_bind.2 ((destroy_since (h.beyond hu) (hi.beyond hu)).mono fun _ _ v hv => ?_)
    exact ensures_modify.2 (hv.1.updateInstance i _)
  · exact ensures_modify.2 ((h.beyond hu).updateInstance i _)

theorem teardown_since (h : s₀.Since s) (r : RegistrationId) :
    Ensures Beyond (teardown r) (fun _ _ t => s₀.Since t) s := by
  simp only [teardown, ensures_bind, ensures_waitUntil, ensures_act]
  intro u hu _
  have hu := h.beyond hu
  split
  · exact ensures_pure.2 (hu.takeShared r)
  · rename_i i hi
    exact (retire_since (hu.takeShared r) (hu.filled hi) r).mono fun _ _ _ ht => ht

theorem teardownAll_since (h : s₀.Since s) (rs : List RegistrationId) :
    Ensures Beyond (teardownAll rs) (fun _ _ t => s₀.Since t) s := by
  induction rs generalizing s with
  | nil => exact ensures_pure.2 h
  | cons r rs ih => exact ensures_bind.2 ((teardown_since h r).mono fun _ _ u hu => ih hu)

theorem preload_since (h : s₀.Since s) (r : RegistrationId) :
    Ensures Beyond (preload r) (fun _ _ t => s₀.Since t) s := by
  refine ensures_bind.2 (ensures_get.2 ?_)
  split
  · refine ensures_bind.2 ((createHandler_obtains h r).mono fun _ got u hu => ?_)
    cases got with
    | error f => exact ensures_pure.2 hu.1
    | ok i =>
      simp only [ensures_bind, ensures_modify, ensures_pure]
      exact hu.1.giveBack r i
  · exact ensures_pure.2 h

theorem preloadAll_since (h : s₀.Since s) (rs : List RegistrationId) :
    Ensures Beyond (preloadAll rs) (fun _ _ t => s₀.Since t) s := by
  induction rs generalizing s with
  | nil => exact ensures_pure.2 h
  | cons r rs ih =>
    refine ensures_bind.2 (ensures_get.2 ?_)
    split
    · refine ensures_bind.2 (Ensures.mono (preload_since h r) fun _ out u hu => ?_)
      split
      · exact ensures_pure.2 hu
      · exact ih hu
    · exact ih h

/-! ## Phases -/

theorem contextHook_since (h : s₀.Since s) (d : ComponentId) (p : Phase) :
    Ensures Beyond (contextHook d p) (fun _ _ t => s₀.Since t) s := by
  cases p with
  | init => exact ensures_pure.2 h
  | start => exact ensures_bind.2 (ensures_get.2 (preloadAll_since h _))
  | stop =>
    refine ensures_bind.2 (ensures_act.2 (ensures_bind.2 ?_))
    refine (teardownAll_since (h.updateDesk d _) _).mono fun _ _ u hu => ?_
    refine ensures_bind.2 (ensures_get.2 (ensures_bind.2 ?_))
    exact (teardownAll_since hu _).mono fun _ _ t ht => ensures_pure.2 ht
  | destroy =>
    refine ensures_bind.2 (ensures_act.2 (ensures_bind.2 (ensures_act.2 (ensures_bind.2 ?_))))
    refine (teardownAll_since ((h.updateDesk d _).updateDesk d _) _).mono fun _ _ u hu => ?_
    refine ensures_bind.2 ((teardownAll_since hu _).mono fun _ _ t ht => ?_)
    exact ensures_bind.2 (ensures_modify.2 (ensures_pure.2 (ht.updateDesk d _)))

/-- What the hooks of a phase keep, the phase keeps. -/
theorem runPhase_since {hook : Phase → PhaseHook} {c : ComponentId} {p : Phase}
    (hhook : ∀ q u, s₀.Since u → Ensures Beyond (hook q) (fun _ _ t => s₀.Since t) u) (h : s₀.Since s) :
    Ensures Beyond (runPhase hook c p) (fun _ _ t => s₀.Since t) s :=
  (Lifecycle.runPhase_ends (I := s₀.Since) (J := fun _ => s₀.Since) (fun _ _ hu => hu.congr rfl rfl rfl)
    (fun _ _ _ hu => hu.congr rfl rfl rfl) (fun _ _ hu => hu) (fun _ => rfl) hhook h).mono fun _ _ _ ht => ht.1

theorem hookAt_since (n : Nat) (h : s₀.Since s) (c : ComponentId) (p : Phase) :
    Ensures Beyond (hookAt n c p) (fun _ _ t => s₀.Since t) s := by
  induction n generalizing s c p with
  | zero => exact contextHook_since h c p
  | succ n ih =>
    refine ensures_bind.2 (ensures_get.2 (cascade_keeps h fun d _ u hu => ?_))
    exact runPhase_since (fun q v hv => ih hv d q) hu

theorem phase_since (h : s₀.Since s) (c : ComponentId) (p : Phase) :
    Ensures Beyond (phase c p) (fun _ _ t => s₀.Since t) s :=
  ensures_phase (runPhase_since (fun q _ hu => hookAt_since _ hu c q) h)

/-! ## What is asked of a context -/

theorem removeHandler_since (h : s₀.Since s) (d : ComponentId) (name : String) :
    Ensures Beyond (removeHandler d name) (fun _ _ t => s₀.Since t) s := by
  refine ensures_bind.2 (ensures_get.2 ?_)
  split
  · exact ensures_pure.2 h
  · refine ensures_bind.2 (ensures_modify.2 (ensures_bind.2 ?_))
    exact (teardown_since (h.updateDesk d _) _).mono fun _ _ t ht => ensures_pure.2 ht

theorem Store.Since.addRegistration {g : Registration} (h : s₀.Since s) (hcached : g.cached = none)
    (hshared : g.shared = none) : s₀.Since (s.addRegistration g).1 := by
  refine h.step (Nat.le_refl _) (Store.notes_of_acts_eq rfl) (fun r => ?_) fun r i hr => ?_
  · rw [Store.addRegistration, Store.registration_add]
    split
    · exact Registration.isCurrent_of_none hcached
    · exact h.tidy.current r
  · rw [Store.addRegistration, Store.registration_add] at hr
    split at hr
    · rw [hshared] at hr
      cases hr
    · exact h.filled hr

theorem Store.Since.insertRegistration (h : s₀.Since s) (d : ComponentId) (r : RegistrationId) :
    s₀.Since (s.insertRegistration d r).1 :=
  (h.updateRegistration (Registration.isCurrent_of_none rfl) fun _ hi => h.filled hi).updateDesk d _

theorem Store.Since.register (h : s₀.Since s) (d : ComponentId) (entry : Entry) :
    s₀.Since (s.register d entry) := by
  unfold Store.register
  split
  · exact h
  · rename_i g hg
    obtain ⟨-, rfl⟩ := Store.newRegistration_eq_ok_iff.1 hg
    exact Store.Since.insertRegistration (h.addRegistration (by exact rfl) (by exact rfl)) d _

theorem op_since (h : s₀.Since s) (d : ComponentId) (op : Op) :
    Ensures Beyond (op.work d) (fun _ _ t => s₀.Since t) s := by
  cases op with
  | register entry => exact ensures_modify.2 (h.register d entry)
  | adjust r params unavailable loadOnStartup hook =>
    exact ensures_modify.2 (h.updateRegistration (Registration.isCurrent_of_none rfl) fun _ hi => h.filled hi)
  | setDefault name =>
    refine ensures_modify.2 ?_
    unfold Store.setDefault
    split
    · exact h
    · exact h.updateDesk d _
  | remove name =>
    exact ensures_bind.2 ((removeHandler_since h d name).mono fun _ _ _ ht => ensures_pure.2 ht)
  | dispatch e => exact ensures_bind.2 ((dispatchContext_since h d e).mono fun _ _ _ ht => ensures_pure.2 ht)
  | phase p => exact ensures_bind.2 ((phase_since h d p).mono fun _ _ _ ht => ensures_pure.2 ht)

end

/-! ## Histories -/

/-- What may become of a store at one go: work that leaves registrations, instances and the journal as
they are, registrations made and put on desks, any operation of a context, a dispatch at any component,
and instances lent and given back. -/
inductive Advance (s : Store) : Store → Prop
  | aside {t : Store} : t.registrations = s.registrations → t.instances = s.instances → t.acts = s.acts →
      Advance s t
  | make (g : Registration) : g.cached = none → g.shared = none → Advance s (s.addRegistration g).1
  | attach (d : ComponentId) (r : RegistrationId) : Advance s (s.insertRegistration d r).1
  | op {t : Store} {own : List (Store × Store)} (d : ComponentId) (op : Op) :
      Runs Beyond (op.work d) s own () t → Advance s t
  | dispatch {t : Store} {own : List (Store × Store)} {out : Handled} (c : ComponentId) (e : RequestEvent) :
      Runs Beyond (dispatch c e) s own out t → Advance s t
  | lend {t : Store} {own : List (Store × Store)} {out : Except Fault InstanceId} (r : RegistrationId) :
      Runs Beyond (createHandler r) s own out t → Advance s t
  | giveBack (r : RegistrationId) (i : InstanceId) : Advance s (s.giveBack r i)

/-- One after the other, each run to its end. -/
abbrev Advances : Store → Store → Prop := Relation.ReflTransGen Advance

/-- Comes from a store where nothing is registered, built or done yet. -/
def Store.Arises (s : Store) : Prop :=
  ∃ s₀ : Store, s₀.registrations = {} ∧ s₀.instances = {} ∧ s₀.acts = [] ∧ Advances s₀ s

section

variable {s₀ s t : Store}

theorem Advance.since (h : Advance s t) (hs : s₀.Since s) : s₀.Since t := by
  cases h with
  | aside hr hi ha => exact hs.congr hr (by rw [hi]) ha
  | make g hcached hshared => exact hs.addRegistration hcached hshared
  | attach d r => exact hs.insertRegistration d r
  | op d op hrun => exact op_since hs d op _ _ _ hrun
  | dispatch c e hrun => exact dispatch_since hs c e _ _ _ hrun
  | lend r hrun => exact (createHandler_obtains hs r _ _ _ hrun).1
  | giveBack r i => exact hs.giveBack r i

theorem Advances.since (h : Advances s t) (hs : s₀.Since s) : s₀.Since t := by
  induction h with
  | refl => exact hs
  | tail _ hstep ih => exact hstep.since ih

theorem Store.Arises.tidy (h : s.Arises) : s.Tidy := by
  obtain ⟨s₀, hr, hi, ha, hs⟩ := h
  have hnone : ∀ r, s₀.registration r = default := fun r => by
    rw [Store.registration, hr]
    exact Roster.getD_of_le _ (Nat.zero_le _) _
  refine (Advances.since hs (.refl ⟨fun r => ?_, ?_, fun r i hf => ?_⟩)).tidy
  · rw [hnone r]
    exact Registration.isCurrent_of_none rfl
  · simp [ha]
  · rw [hnone r] at hf
    cases hf

/-- What was noted about a loose instance is all that ever will be. -/
theorem Advances.trail_eq (h : Advances s t) (hs : s.Tidy) {i : InstanceId} (hi : s.Loose i) :
    t.trail i = s.trail i := ((h.since (.refl hs)).loose i hi).2

end

end Container
end Switchboard
