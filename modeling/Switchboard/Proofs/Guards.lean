import Switchboard.Proofs.Frames
import Switchboard.Proofs.Registries

/-!
# What guards a handler

The guard of a registration is its name, its parameters and its hook. `Guarded s t`
says that from `s` to `t` nobody came past one: guards and hooks are the same, the
tree has the same branches, in whatever order, and what is on a desk was there
before, under the same settings. Every single write of a phase or a dispatch is
guarded, so whatever runs beside one another, an event meets the guards that the
tree was built with.
-/

namespace Switchboard.Container

open Activity

namespace Store

/-- Handlers may leave their desks and branches change places, but no handler comes in, and nothing else
that decides who may reach a handler is different. -/
structure Guarded (s t : Store) : Prop where
  hooks : t.hooks = s.hooks
  children : ∀ c, (t.childIds c).Perm (s.childIds c)
  guards : ∀ r, (t.registrations.get? r).map (·.guard) = (s.registrations.get? r).map (·.guard)
  desks : ∀ c new, t.desk? c = some new → ∃ old, s.desk? c = some old ∧
    new.settings = old.settings ∧ ∀ r ∈ Directory.values new.handlers, r ∈ Directory.values old.handlers

variable {s t u : Store} {r : RegistrationId}

theorem Guarded.refl (s : Store) : Guarded s s :=
  ⟨rfl, fun _ => .refl _, fun _ => rfl, fun _ new h => ⟨new, h, rfl, fun _ hr => hr⟩⟩

theorem Guarded.trans (s t u : Store) (h : Guarded s t) (k : Guarded t u) : Guarded s u where
  hooks := k.hooks.trans h.hooks
  children c := (k.children c).trans (h.children c)
  guards r := (k.guards r).trans (h.guards r)
  desks c new hn := by
    obtain ⟨mid, hm, hset, hmem⟩ := k.desks c new hn
    obtain ⟨old, ho, hset', hmem'⟩ := h.desks c mid hm
    exact ⟨old, ho, hset.trans hset', fun r hr => hmem' r (hmem r hr)⟩

theorem Guarded.lt_size_iff (h : Guarded s t) :
    r < t.registrations.size ↔ r < s.registrations.size := by
  have hsome := congrArg Option.isSome (h.guards r)
  simp only [Option.isSome_map] at hsome
  rw [← Roster.isSome_get?, ← Roster.isSome_get?, hsome]

theorem guarded_of_components (hc : t.components = s.components) (hh : t.hooks = s.hooks)
    (hg : ∀ r, (t.registrations.get? r).map (·.guard) = (s.registrations.get? r).map (·.guard)) :
    Guarded s t := by
  refine ⟨hh, fun c => .of_eq ?_, hg, fun c new h => ⟨new, ?_, rfl, fun _ hr => hr⟩⟩
  · rw [childIds, component, hc, childIds, component]
  · rw [desk?, component, hc] at h
    exact h

theorem guarded_of_eq (hc : t.components = s.components) (hh : t.hooks = s.hooks)
    (hr : t.registrations = s.registrations) : Guarded s t :=
  guarded_of_components hc hh fun _ => by rw [hr]

theorem UsesOnly.guarded (h : UsesOnly r s t) : Guarded s t := by
  refine guarded_of_components h.components h.hooks fun r' => ?_
  -- The guard is part of the charter.
  have hg := congrArg (Option.map Registration.guard) (h.charters r')
  rwa [Option.map_map, Option.map_map] at hg

/-- A desk keeps its settings and gets no handlers. -/
theorem guarded_updateDesk (s : Store) (c : ComponentId) {f : Desk → Desk}
    (hf : ∀ d, (f d).settings = d.settings ∧
      ∀ r ∈ Directory.values (f d).handlers, r ∈ Directory.values d.handlers) :
    Guarded s (s.updateDesk c f) := by
  refine ⟨rfl, fun b => .of_eq ?_, fun _ => rfl, fun b new h => ?_⟩
  · have hkeep := ((s.component c).updateDesk_keeps f).1
    rw [childIds, updateDesk, updateComponent_keeps Component.children hkeep, childIds]
  · rw [desk?_updateDesk] at h
    split at h
    · obtain ⟨old, ho, rfl⟩ := Option.map_eq_some_iff.1 h
      exact ⟨old, ho, hf old⟩
    · exact ⟨new, h, rfl, fun _ hr => hr⟩

end Store

section

variable {rely : Store → Store → Prop}

/-! ## Dispatches -/

theorem guarded_consult (g : Registration) (e : RequestEvent) :
    Guarantees rely Store.Guarded (consult g e) :=
  guarantees_consult (fun _ _ _ _ => Store.guarded_of_eq rfl rfl rfl)
    (fun _ _ _ => Store.guarded_of_eq rfl rfl rfl) g e

theorem guarded_invoke (r : RegistrationId) (e : RequestEvent) :
    Guarantees rely Store.Guarded (invoke r e) :=
  (usesOnly_invoke r e).mono fun _ _ h => h.guarded

theorem guarded_dispatch (c : ComponentId) (e : RequestEvent) :
    Guarantees rely Store.Guarded (dispatch c e) :=
  guarantees_dispatch guarded_invoke guarded_consult (fun _ _ => Store.guarded_of_eq rfl rfl rfl) c e

/-! ## Phases -/

theorem guarded_phase (c : ComponentId) (p : Lifecycle.Phase) :
    Guarantees rely Store.Guarded (phase c p) :=
  guarantees_phase (fun _ _ => Store.guarded_of_eq rfl rfl rfl)
    (guarantees_contextHook (fun r => (usesOnly_teardown r).mono fun _ _ h => h.guarded)
      (fun s c _ hf => s.guarded_updateDesk c hf)
      fun r => (usesOnly_preload r).mono fun _ _ h => h.guarded) c p

end

end Switchboard.Container
