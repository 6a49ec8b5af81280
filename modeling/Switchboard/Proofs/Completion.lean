import Switchboard.Container.Cascade
import Switchboard.Proofs.Runs

/-!
# Phases come to their end

A teardown waits for a slot to be unlocked and for requests to give instances
back. Where nobody is building or serving, which `AtRest` states, there is nothing
to wait for: a phase that is left alone comes to its end, whatever fails on the
way, and leaves nobody at work.
-/

namespace Switchboard.Container

open Activity
open Lifecycle (Board HasBoard Hook onBoard runPhase runSingle conclude)

namespace Store

/-- No slot is locked and no request is under way. -/
def AtRest (s : Store) : Prop :=
  ∀ r, (s.registration r).locked = false ∧ (s.registration r).active = 0

/-- Somebody is at work with one registration, and nobody with another. -/
structure Engaged (r : RegistrationId) (locked : Bool) (active : Nat) (s : Store) : Prop where
  registered : r < s.registrations.size
  locked : (s.registration r).locked = locked
  active : (s.registration r).active = active
  others : ∀ r' ≠ r, (s.registration r').locked = false ∧ (s.registration r').active = 0

variable {s t : Store} {r : RegistrationId} {i : InstanceId} {locked locked' : Bool} {n n' : Nat}

theorem AtRest.congr (h : s.AtRest) (hr : t.registrations = s.registrations) : t.AtRest := by
  intro r
  rw [registration, hr]
  exact h r

theorem AtRest.engaged (h : s.AtRest) (hr : r < s.registrations.size) : s.Engaged r false 0 :=
  ⟨hr, (h r).1, (h r).2, fun r' _ => h r'⟩

theorem Engaged.atRest (h : s.Engaged r false 0) : s.AtRest := by
  intro r'
  by_cases hr : r' = r
  · exact hr ▸ ⟨h.locked, h.active⟩
  · exact h.others r' hr

theorem Engaged.congr (h : s.Engaged r locked n) (hr : t.registrations = s.registrations) :
    t.Engaged r locked n := by
  obtain ⟨hlt, hl, ha, ho⟩ := h
  refine ⟨?_, ?_, ?_, ?_⟩ <;> simp only [registration, hr] at * <;> assumption

theorem Engaged.update (h : s.Engaged r locked n) {f : Registration → Registration}
    (hl : (f (s.registration r)).locked = locked') (ha : (f (s.registration r)).active = n') :
    (s.updateRegistration r f).Engaged r locked' n' := by
  refine ⟨?_, ?_, ?_, fun r' hr => ?_⟩
  · show r < (s.registrations.update r f).size
    rw [Roster.size_update]
    exact h.registered
  · rw [registration_updateRegistration, if_pos ⟨rfl, h.registered⟩, hl]
  · rw [registration_updateRegistration, if_pos ⟨rfl, h.registered⟩, ha]
  · rw [registration_updateRegistration, if_neg fun hh => hr hh.1.symm]
    exact h.others r' hr

theorem Engaged.configure (h : s.Engaged r locked n) : (s.configure r).1.Engaged r locked n := by
  have hsame := (s.registration r).fst_config
  exact h.update ((congrArg Registration.locked hsame).trans h.locked)
    ((congrArg Registration.active hsame).trans h.active)

theorem Engaged.releaseSlot (h : s.Engaged r locked (n + 1)) : (s.releaseSlot r).Engaged r locked n := by
  have hpos : 0 < (s.registration r).active := by
    rw [h.active]
    exact Nat.succ_pos n
  refine h.update ?_ ?_
  · rw [Registration.released, if_pos hpos]
    exact h.locked
  · rw [Registration.released, if_pos hpos, h.active]
    rfl

theorem registrations_instantiate (s : Store) (r : RegistrationId) :
    (s.instantiate r).1.registrations = s.registrations := by
  unfold instantiate
  dsimp only
  split <;> rfl

theorem registrations_share (s : Store) (r : RegistrationId) :
    (s.share r).1.registrations = s.registrations := by
  unfold share
  split <;> rfl

end Store

section

variable {s : Store} {r : RegistrationId} {i : InstanceId} {locked : Bool} {n : Nat}

/-! ## Obtaining an instance -/

theorem setUp_completes (h : s.Engaged r locked n) (i : InstanceId) :
    Completes (setUp r i) (fun _ t => t.Engaged r locked n) s := by
  simp only [setUp, runInit, completes_bind, completes_act, completes_yield]
  exact h.configure.congr rfl

theorem place_completes (h : s.Engaged r locked n) (i : InstanceId) (outcome : Except String Unit) :
    Completes (place r i outcome) (fun _ t => t.Engaged r false n) s := by
  cases outcome with
  | error cause =>
    have hdrop : (s.drop i).Engaged r locked n := h.congr rfl
    exact completes_act.2 ((hdrop.update (f := fun g => { g with locked := false }) rfl h.active).congr rfl)
  | ok =>
    simp only [place, completes_bind, completes_modify, completes_pure]
    exact (h.update (f := fun g => { g with shared := some i, locked := false }) rfl h.active).congr rfl

theorem buildShared_completes (h : s.Engaged r locked n) :
    Completes (buildShared r) (fun _ t => t.Engaged r false n) s := by
  simp only [buildShared, completes_bind, completes_act]
  have hi := h.congr (s.registrations_instantiate r)
  cases (s.instantiate r).2 with
  | error f =>
    simp only [completes_bind, completes_modify, completes_pure]
    exact hi.update (f := fun g => { g with locked := false }) rfl hi.active
  | ok i =>
    simp only [completes_bind]
    exact (setUp_completes hi i).mono fun outcome _ ht => place_completes ht i outcome

theorem shareOrBuild_completes (h : s.Engaged r false n) :
    Completes (shareOrBuild r) (fun _ t => t.Engaged r false n) s := by
  simp only [shareOrBuild, completes_bind]
  refine completes_waitUntil (by rw [Store.isUnlocked, h.locked]; rfl) (completes_act.2 ?_)
  have hs := h.congr (s.registrations_share r)
  cases (s.share r).2 with
  | some i => exact completes_pure.2 hs
  | none =>
    simp only [completes_bind, completes_modify]
    exact buildShared_completes (hs.update (f := fun g => { g with locked := true }) rfl hs.active)

theorem obtainShared_completes (h : s.Engaged r false n) :
    Completes (obtainShared r) (fun _ t => t.Engaged r false n) s := by
  simp only [obtainShared, completes_bind]
  refine completes_waitUntil (by rw [Store.isUnlocked, h.locked]; rfl) (completes_act.2 ?_)
  have hs := h.congr (s.registrations_share r)
  cases (s.share r).2 with
  | some i => exact completes_pure.2 hs
  | none => exact shareOrBuild_completes hs

/-- Whoever got an instance is at work, and whoever got none is not. -/
theorem createHandler_completes (h : s.Engaged r false 0) :
    Completes (createHandler r)
      (fun out t => t.Engaged r false (match out with | .ok _ => 1 | .error _ => 0)) s := by
  simp only [createHandler, completes_bind, completes_act]
  have ha := h.update (f := fun g => { g with active := g.active + 1 }) h.locked
    (congrArg (· + 1) h.active)
  have hgot : Completes (if (s.registration r).instancing.sharesInstance then obtainShared r
      else .act (·.instantiate r)) (fun _ t => t.Engaged r false 1)
      (s.updateRegistration r fun g => { g with active := g.active + 1 }) := by
    split
    · exact obtainShared_completes ha
    · exact completes_act.2 (ha.congr (Store.registrations_instantiate _ r))
  refine hgot.mono fun out t ht => ?_
  cases out with
  | ok i => exact completes_pure.2 ht
  | error f =>
    simp only [deliver, completes_bind, completes_modify, completes_pure]
    exact ht.releaseSlot

theorem preload_completes (h : s.AtRest) (r : RegistrationId) :
    Completes (preload r) (fun _ t => t.AtRest) s := by
  simp only [preload, completes_bind, completes_get]
  split
  next hshares =>
    have hr : r < s.registrations.size := by
      refine Nat.lt_of_not_le fun hle => ?_
      rw [Store.registration, s.registrations.getD_of_le hle] at hshares
      cases hshares
    refine completes_bind.2 ((createHandler_completes (h.engaged hr)).mono fun out t ht => ?_)
    cases out with
    | error f => exact completes_pure.2 ht.atRest
    | ok i =>
      simp only [completes_bind, completes_modify, completes_pure]
      have hd : (t.drop i).Engaged r false 1 := ht.congr rfl
      exact hd.releaseSlot.atRest
  next => exact completes_pure.2 h

theorem preloadAll_completes (h : s.AtRest) (rs : List RegistrationId) :
    Completes (preloadAll rs) (fun _ t => t.AtRest) s := by
  induction rs generalizing s with
  | nil => exact completes_pure.2 h
  | cons r rs ih =>
    simp only [preloadAll, completes_bind, completes_get]
    split
    · refine completes_bind.2 ((preload_completes h r).mono fun out t ht => ?_)
      cases out with
      | error f => exact completes_pure.2 ht
      | ok => exact ih ht
    · exact ih h

/-! ## Teardown -/

theorem retire_completes (h : s.AtRest) (r : RegistrationId) (i : InstanceId) :
    Completes (retire r i) (fun _ t => t.AtRest) s := by
  have hquiet : s.isQuiet r i = true := by
    rw [Store.isQuiet, (h r).2]
    exact Bool.or_true _
  simp only [retire, completes_bind]
  refine completes_waitUntil hquiet (completes_get.2 ?_)
  have hdrop : ∀ t : Store, t.AtRest → Completes (.modify (·.drop i) : Work Unit) (fun _ t => t.AtRest) t :=
    fun t ht => completes_modify.2 (ht.congr rfl)
  split
  · simp only [destroy, runDestroy, completes_bind, completes_act, completes_yield, completes_modify]
    exact h.congr rfl
  · exact hdrop s h

theorem teardown_completes (h : s.AtRest) (r : RegistrationId) :
    Completes (teardown r) (fun _ t => t.AtRest) s := by
  simp only [teardown, completes_bind]
  refine completes_waitUntil (by rw [Store.isUnlocked, (h r).1]; rfl) (completes_act.2 ?_)
  have htaken : (s.takeShared r).1.AtRest := by
    intro r'
    rw [Store.takeShared, Store.registration_updateRegistration]
    split <;> exact h r'
  cases (s.takeShared r).2 with
  | none => exact completes_pure.2 htaken
  | some i => exact retire_completes htaken r i

theorem teardownAll_completes (h : s.AtRest) (rs : List RegistrationId) :
    Completes (teardownAll rs) (fun _ t => t.AtRest) s := by
  induction rs generalizing s with
  | nil => exact completes_pure.2 h
  | cons r rs ih => exact completes_bind.2 ((teardown_completes h r).mono fun _ _ ht => ih ht)

/-! ## Phases -/

theorem contextHook_completes (h : s.AtRest) (c : ComponentId) (p : Lifecycle.Phase) :
    Completes (contextHook c p) (fun _ t => t.AtRest) s := by
  cases p with
  | init => exact completes_pure.2 h
  | start =>
    simp only [contextHook, completes_bind, completes_get]
    exact preloadAll_completes h _
  | stop =>
    simp only [contextHook, completes_bind, completes_act, completes_get, completes_pure]
    have ht : (s.takeRetired c).1.AtRest := h.congr rfl
    exact (teardownAll_completes ht _).mono fun _ _ hu => teardownAll_completes hu _
  | destroy =>
    simp only [contextHook, completes_bind, completes_act, completes_modify, completes_pure]
    have ht : ((s.takeHandlers c).1.takeRetired c).1.AtRest := h.congr rfl
    refine (teardownAll_completes ht _).mono fun _ _ hu => ?_
    exact (teardownAll_completes hu _).mono fun _ _ hv => hv.congr rfl

theorem onBoard_completes {α : Type} (h : s.AtRest) (f : Board → Board × α) :
    Completes (onBoard f : Work α) (fun _ t => t.AtRest) s :=
  completes_act.2 (h.congr rfl)

theorem runSingle_completes {hook : PhaseHook}
    (hhook : ∀ s : Store, s.AtRest → Completes hook (fun _ t => t.AtRest) s) (h : s.AtRest)
    (c : ComponentId) (p : Lifecycle.Phase) :
    Completes (runSingle hook c p) (fun _ t => t.AtRest) s := by
  refine completes_bind.2 ((onBoard_completes h _).mono fun begun t ht => ?_)
  match begun with
  | .error f => exact completes_pure.2 ht
  | .ok false => exact completes_pure.2 ht
  | .ok true =>
    refine completes_bind.2 ((hhook t ht).mono fun outcome u hu => ?_)
    cases outcome with
    | error cause =>
      rw [conclude]
      exact onBoard_completes hu _
    | ok =>
      rw [conclude]
      exact onBoard_completes hu _

theorem runPhase_completes {hook : Lifecycle.Phase → PhaseHook}
    (hhook : ∀ p (s : Store), s.AtRest → Completes (hook p) (fun _ t => t.AtRest) s) (h : s.AtRest)
    (c : ComponentId) (p : Lifecycle.Phase) :
    Completes (runPhase hook c p) (fun _ t => t.AtRest) s := by
  refine completes_bind.2 ((onBoard_completes h _).mono fun state t ht => ?_)
  split
  · refine completes_bind.2 ((runSingle_completes (hhook _) ht c .init).mono fun outcome u hu => ?_)
    cases outcome with
    | error f => exact completes_pure.2 hu
    | ok => exact runSingle_completes (hhook p) hu c p
  · exact runSingle_completes (hhook p) ht c p

theorem cascade_completes {run : ComponentId → Work (Except Lifecycle.Fault Unit)}
    (hrun : ∀ c (s : Store), s.AtRest → Completes (run c) (fun _ t => t.AtRest) s) (h : s.AtRest)
    (cs : List ComponentId) : Completes (cascade run cs) (fun _ t => t.AtRest) s := by
  induction cs generalizing s with
  | nil => exact completes_pure.2 h
  | cons c cs ih =>
    refine completes_bind.2 ((hrun c s h).mono fun outcome t ht => ?_)
    cases outcome with
    | error f => exact completes_pure.2 ht
    | ok => exact ih ht

theorem hookAt_completes (n : Nat) (c : ComponentId) (p : Lifecycle.Phase) (h : s.AtRest) :
    Completes (hookAt n c p) (fun _ t => t.AtRest) s := by
  induction n generalizing c p s with
  | zero => exact contextHook_completes h c p
  | succ n ih =>
    refine completes_bind.2 (completes_get.2 (cascade_completes (fun d s hs => ?_) h _))
    exact runPhase_completes (fun q s hs => ih d q hs) hs d p

/-- A phase that is left alone, with nobody at work, comes to its end. -/
theorem phase_completes (h : s.AtRest) (c : ComponentId) (p : Lifecycle.Phase) :
    Completes (phase c p) (fun _ t => t.AtRest) s := by
  refine completes_bind.2 (completes_get.2 ?_)
  exact runPhase_completes (fun q _ hs => hookAt_completes _ c q hs) h c p

end

end Switchboard.Container
