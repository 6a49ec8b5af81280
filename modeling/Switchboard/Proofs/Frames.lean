import Switchboard.Container.Cascade
import Switchboard.Proofs.Acts
import Switchboard.Proofs.PhaseRuns

/-!
# What dispatches and phases write

A dispatch asks hooks, runs handlers and counts events. A phase moves lifecycles,
prepares handlers or tears them down, and takes them off their desks. What all of
these respect, a dispatch and a phase respect in every component.
-/

namespace Switchboard.Container

open Activity

variable {rely G : Store → Store → Prop}

/-! ## Dispatches -/

/-- All that a consultation writes is that the hook was asked, and that it refused. -/
theorem guarantees_consult (hasked : ∀ s h name b, G s (s.note (.asked h name b)))
    (hrefused : ∀ s h name, G s (s.note (.refused h name))) (g : Registration) (e : RequestEvent) :
    Guarantees rely G (consult g e) := by
  unfold consult
  cases g.hook with
  | none => exact guarantees_pure _
  | some h =>
    refine Guarantees.bind (guarantees_act fun s => hasked s h g.name _) fun asked => ?_
    refine (guarantees_yield _).bind fun _ => ?_
    split
    · exact guarantees_pure _
    · refine Guarantees.bind (guarantees_act fun s => hrefused s h g.name) fun answer => ?_
      refine (guarantees_yield _).bind fun _ => ?_
      split <;> exact guarantees_pure _

theorem guarantees_offer {dispatch : ComponentId → RequestEvent → Work Handled}
    (h : ∀ c e, Guarantees rely G (dispatch c e)) (cs : List ComponentId) (e : RequestEvent) :
    Guarantees rely G (offer dispatch cs e) := by
  induction cs generalizing e with
  | nil => exact guarantees_pure _
  | cons c cs ih =>
    refine (h c e).bind fun out => ?_
    split
    · exact guarantees_pure _
    · split
      · exact guarantees_pure _
      · exact ih _

section

variable (hinvoke : ∀ r e, Guarantees rely G (invoke r e)) (hconsult : ∀ g e, Guarantees rely G (consult g e))
include hinvoke hconsult

theorem guarantees_dispatchContext (c : ComponentId) (e : RequestEvent) :
    Guarantees rely G (dispatchContext c e) := by
  refine guarantees_get.bind fun s => ?_
  split
  · exact guarantees_pure _
  split
  · exact guarantees_pure _
  dsimp only
  split
  · exact guarantees_pure _
  split
  · refine (hconsult _ e).bind fun answer => ?_
    split
    · exact guarantees_pure _
    · exact guarantees_pure _
    · exact hinvoke _ _
  · exact hinvoke _ _

theorem guarantees_dispatchService (c : ComponentId) (e : RequestEvent) :
    Guarantees rely G (dispatchService c e) := by
  refine guarantees_get.bind fun s => ?_
  split
  · exact guarantees_dispatchContext hinvoke hconsult _ e
  · exact guarantees_pure _

theorem guarantees_dispatchServer (c : ComponentId) (e : RequestEvent) :
    Guarantees rely G (dispatchServer c e) :=
  guarantees_get.bind fun _ => (guarantees_offer (guarantees_dispatchService hinvoke hconsult) _ e).bind fun _ =>
    guarantees_pure _

variable (hmeasure : ∀ s m, G s (s.measure m))
include hmeasure

theorem guarantees_dispatchDomain (c : ComponentId) (e : RequestEvent) :
    Guarantees rely G (dispatchDomain c e) := by
  refine Guarantees.bind (guarantees_modify fun s => hmeasure s _) fun _ => guarantees_get.bind fun s => ?_
  refine (guarantees_offer (guarantees_dispatchServer hinvoke hconsult) _ e).bind fun out => ?_
  split
  · exact guarantees_pure _
  · exact guarantees_pure _
  · exact Guarantees.bind (guarantees_modify fun s => hmeasure s _) fun _ => guarantees_pure _

theorem guarantees_dispatch (c : ComponentId) (e : RequestEvent) : Guarantees rely G (dispatch c e) := by
  refine guarantees_get.bind fun s => ?_
  split
  · exact guarantees_dispatchDomain hinvoke hconsult hmeasure c e
  · exact guarantees_dispatchServer hinvoke hconsult c e
  · exact guarantees_dispatchService hinvoke hconsult c e
  · exact guarantees_dispatchContext hinvoke hconsult c e

end

/-! ## Phases -/

theorem guarantees_preloadAll (hpreload : ∀ r, Guarantees rely G (preload r)) (rs : List RegistrationId) :
    Guarantees rely G (preloadAll rs) := by
  induction rs with
  | nil => exact guarantees_pure _
  | cons r rs ih =>
    refine guarantees_get.bind fun s => ?_
    split
    · refine (hpreload r).bind fun out => ?_
      cases out with
      | error f => exact guarantees_pure _
      | ok => exact ih
    · exact ih

section

variable (hteardown : ∀ r, Guarantees rely G (teardown r))
include hteardown

theorem guarantees_teardownAll (rs : List RegistrationId) : Guarantees rely G (teardownAll rs) := by
  induction rs with
  | nil => exact guarantees_pure _
  | cons r rs ih => exact (hteardown r).bind fun _ => ih

-- A desk keeps its settings whatever becomes of its handlers, and none comes in.
variable (hdesk : ∀ (s : Store) c (f : Desk → Desk), (∀ d, (f d).settings = d.settings ∧
  ∀ r ∈ Directory.values (f d).handlers, r ∈ Directory.values d.handlers) → G s (s.updateDesk c f))
include hdesk

theorem guarantees_removeHandler (c : ComponentId) (name : String) :
    Guarantees rely G (removeHandler c name) := by
  refine guarantees_get.bind fun s => ?_
  split
  · exact guarantees_pure _
  · refine Guarantees.bind (guarantees_modify fun s => hdesk s c _ fun d => ⟨rfl, fun r hr => ?_⟩) fun _ =>
      (hteardown _).bind fun _ => guarantees_pure _
    exact ((Directory.erase_sublist name d.handlers).map _).subset hr

variable (hpreload : ∀ r, Guarantees rely G (preload r))
include hpreload

theorem guarantees_contextHook (c : ComponentId) (p : Lifecycle.Phase) :
    Guarantees rely G (contextHook c p) := by
  have htake : Guarantees rely G (.act (·.takeRetired c) : Work (List RegistrationId)) :=
    guarantees_act fun s => hdesk s c _ fun _ => ⟨rfl, fun _ h => h⟩
  have hall := guarantees_teardownAll hteardown
  cases p with
  | init => exact guarantees_pure _
  | start => exact guarantees_get.bind fun s => guarantees_preloadAll hpreload _
  | stop =>
    refine htake.bind fun retired => (hall retired).bind fun _ => ?_
    exact guarantees_get.bind fun s => (hall _).bind fun _ => guarantees_pure _
  | destroy =>
    have hclear : Guarantees rely G (.act (·.takeHandlers c) : Work (List RegistrationId)) :=
      guarantees_act fun s => hdesk s c _ fun _ => ⟨rfl, fun _ h => nomatch h⟩
    refine hclear.bind fun handlers => htake.bind fun retired => ?_
    refine (hall retired).bind fun _ => (hall handlers).bind fun _ => ?_
    refine Guarantees.bind (guarantees_modify fun s => ?_) fun _ => guarantees_pure _
    exact hdesk s c _ fun _ => ⟨rfl, fun _ h => h⟩

end

theorem guarantees_cascade {run : ComponentId → Work (Except Lifecycle.Fault Unit)}
    (h : ∀ c, Guarantees rely G (run c)) (cs : List ComponentId) : Guarantees rely G (cascade run cs) := by
  induction cs with
  | nil => exact guarantees_pure _
  | cons c cs ih =>
    refine (h c).bind fun out => ?_
    cases out with
    | error f => exact guarantees_pure _
    | ok => exact ih

section

variable (hboard : ∀ s b, G s (Lifecycle.HasBoard.setBoard s b))
  (hhook : ∀ c p, Guarantees rely G (contextHook c p))
include hboard hhook

theorem guarantees_hookAt (n : Nat) (c : ComponentId) (p : Lifecycle.Phase) :
    Guarantees rely G (hookAt n c p) := by
  induction n generalizing c p with
  | zero => exact hhook c p
  | succ n ih =>
    exact guarantees_get.bind fun s =>
      guarantees_cascade (fun d => Lifecycle.guarantees_runPhase hboard (ih d)) _

theorem guarantees_phase (c : ComponentId) (p : Lifecycle.Phase) : Guarantees rely G (phase c p) :=
  guarantees_get.bind fun _ => Lifecycle.guarantees_runPhase hboard (guarantees_hookAt hboard hhook _ c)

end

end Switchboard.Container
