import Switchboard.Proofs.Outcomes
import Switchboard.Topology.Plan

/-!
# What a plan says

A topology has a plan when its names can be resolved and its siblings told apart.
The plan then has what the topology has, level by level and in the same order,
which `PlannedAs` states of each kind of part.
-/

namespace Switchboard.Topology

open Container (Store)

/-! ## Distinct names -/

theorem repeated?_eq_none_iff {seen names : List String} :
    repeated? seen names = none ↔ names.Nodup ∧ ∀ n ∈ names, n ∉ seen := by
  induction names generalizing seen with
  | nil => simp [repeated?]
  | cons n ns ih =>
    rw [repeated?, List.nodup_cons, List.forall_mem_cons]
    split
    next hn => exact iff_of_false (fun h => nomatch h) fun h => h.2.1 hn
    next hn =>
      rw [ih]
      constructor
      · rintro ⟨hnodup, hnew⟩
        refine ⟨⟨fun hm => hnew n hm List.mem_cons_self, hnodup⟩, hn, fun m hm hs => ?_⟩
        exact hnew m hm (List.mem_cons_of_mem n hs)
      · rintro ⟨⟨hnot, hnodup⟩, -, hnew⟩
        refine ⟨hnodup, fun m hm hs => ?_⟩
        rcases List.mem_cons.1 hs with rfl | hs
        · exact hnot hm
        · exact hnew m hm hs

theorem requireDistinct_eq_ok_iff {kind parent : String} {names : List String} {u : Unit} :
    requireDistinct kind parent names = .ok u ↔ names.Nodup := by
  have hnone : repeated? [] names = none ↔ names.Nodup := by simp [repeated?_eq_none_iff]
  rw [← hnone, requireDistinct]
  cases repeated? [] names <;> simp

theorem orUnknown_eq_ok_iff {α : Type} {flaw : Container.TopologyFlaw} {o : Option α} {a : α} :
    Catalog.orUnknown flaw o = .ok a ↔ o = some a := by
  cases o <;> simp [Catalog.orUnknown]

theorem hook_eq_ok_iff {cat : Catalog} {name : Option String} {hook : Option HookId} :
    cat.hook name = .ok hook ↔
      name = none ∧ hook = none ∨
        ∃ key h, name = some key ∧ hook = some h ∧ cat.hooks.lookup key = some h := by
  cases name with
  | none => simp [Catalog.hook, eq_comm]
  | some key =>
    rw [Catalog.hook, map_eq_ok_iff]
    constructor
    · rintro ⟨h, hl, rfl⟩
      exact .inr ⟨key, h, rfl, rfl, orUnknown_eq_ok_iff.1 hl⟩
    · rintro (⟨⟨⟩, -⟩ | ⟨_, h, ⟨⟩, rfl, hl⟩)
      exact ⟨h, orUnknown_eq_ok_iff.2 hl, rfl⟩

/-! ## The parts of a plan -/

/-- The registration is of the class that the handler names and has all that the handler gives. -/
structure Handler.PlannedAs (cat : Catalog) (s : Store) (h : Handler) (g : Registration) : Prop where
  cls : cat.classes.lookup h.className = some g.cls
  valid : (s.classOf g.cls).isInvalid = false
  hook : cat.hook h.hook = .ok g.hook
  rest : g = {
    name := h.name, cls := g.cls, instancing := (s.classOf g.cls).instancing, params := h.params
    loadOnStartup := h.loadOnStartup, unavailable := h.unavailable, hook := g.hook }

structure Context.PlannedAs (cat : Catalog) (s : Store) (t : Context) (p : ContextPlan) : Prop where
  name : p.name = t.name
  request : cat.tag t.requestType = .ok p.request
  response : cat.tag t.responseType = .ok p.response
  distinct : (t.handlers.map (·.name)).Nodup
  handlers : List.Forall₂ (Handler.PlannedAs cat s) t.handlers p.registrations
  defaultHandler : p.defaultHandler = t.defaultHandler
  registered : ∀ name, t.defaultHandler = some name → name ∈ t.handlers.map (·.name)

structure Service.PlannedAs (cat : Catalog) (s : Store) (t : Service) (p : ServicePlan) : Prop where
  name : p.name = t.name
  distinct : (t.contexts.map (·.name)).Nodup
  contexts : List.Forall₂ (Context.PlannedAs cat s) t.contexts p.contexts

structure Server.PlannedAs (cat : Catalog) (s : Store) (t : Server) (p : ServerPlan) : Prop where
  name : p.name = t.name
  distinct : (t.services.map (·.name)).Nodup
  services : List.Forall₂ (Service.PlannedAs cat s) t.services p.services

structure Domain.PlannedAs (cat : Catalog) (s : Store) (t : Domain) (p : DomainPlan) : Prop where
  name : p.name = t.name
  settings : p.settings = t.settings
  valid : t.settings.validate = .ok ()
  distinct : (t.servers.map (·.name)).Nodup
  servers : List.Forall₂ (Server.PlannedAs cat s) t.servers p.servers

variable {cat : Catalog} {s : Store}

theorem Handler.PlannedAs.name {h : Handler} {g : Registration} (hg : h.PlannedAs cat s g) :
    g.name = h.name := congrArg Registration.name hg.rest

/-- The handlers of a context are registered under their names. -/
theorem Context.PlannedAs.names {t : Context} {p : ContextPlan} (h : t.PlannedAs cat s p) :
    p.registrations.map (·.name) = t.handlers.map (·.name) :=
  (map_eq_map_of_forall₂ h.handlers fun _ _ hg => hg.name.symm).symm

theorem Service.PlannedAs.names {t : Service} {p : ServicePlan} (h : t.PlannedAs cat s p) :
    p.contexts.map (·.name) = t.contexts.map (·.name) :=
  (map_eq_map_of_forall₂ h.contexts fun _ _ hc => hc.name.symm).symm

theorem Server.PlannedAs.names {t : Server} {p : ServerPlan} (h : t.PlannedAs cat s p) :
    p.services.map (·.name) = t.services.map (·.name) :=
  (map_eq_map_of_forall₂ h.services fun _ _ hv => hv.name.symm).symm

theorem Domain.PlannedAs.names {t : Domain} {p : DomainPlan} (h : t.PlannedAs cat s p) :
    p.servers.map (·.name) = t.servers.map (·.name) :=
  (map_eq_map_of_forall₂ h.servers fun _ _ hv => hv.name.symm).symm

theorem planHandler_eq_ok_iff {h : Handler} {g : Registration} :
    cat.planHandler s h = .ok g ↔ h.PlannedAs cat s g := by
  simp only [Catalog.planHandler, bind_eq_ok_iff, orUnknown_eq_ok_iff, Store.newRegistration_eq_ok_iff]
  constructor
  · rintro ⟨cls, hcls, _, ⟨hvalid, rfl⟩, hook, hhook, hg⟩
    cases hg
    exact ⟨hcls, hvalid, hhook, rfl⟩
  · rintro ⟨hcls, hvalid, hhook, hg⟩
    exact ⟨g.cls, hcls, _, ⟨hvalid, rfl⟩, g.hook, hhook, congrArg _ hg.symm⟩

theorem planContext_eq_ok_iff {t : Context} {p : ContextPlan} :
    cat.planContext s t = .ok p ↔ t.PlannedAs cat s p := by
  simp only [Catalog.planContext, bind_eq_ok_iff, requireDistinct_eq_ok_iff, mapM_eq_ok_iff,
    planHandler_eq_ok_iff]
  constructor
  · rintro ⟨request, hreq, response, hres, ⟨⟩, hnodup, gs, hgs, h⟩
    split at h
    next name hd =>
      split at h
      next hm =>
        cases h
        exact ⟨rfl, hreq, hres, hnodup, hgs, hd.symm, fun n hn => Option.some.inj (hd.symm.trans hn) ▸ hm⟩
      next => cases h
    next hd =>
      cases h
      exact ⟨rfl, hreq, hres, hnodup, hgs, hd.symm, fun n hn => nomatch hd.symm.trans hn⟩
  · intro h
    obtain ⟨name, request, response, gs, default⟩ := p
    obtain ⟨rfl, hreq, hres, hnodup, hgs, rfl, hreg⟩ := h
    refine ⟨request, hreq, response, hres, (), hnodup, gs, hgs, ?_⟩
    split
    next name hd =>
      rw [if_pos (hreg name hd), hd]
      rfl
    next hd =>
      rw [hd]
      rfl

theorem planService_eq_ok_iff {t : Service} {p : ServicePlan} :
    cat.planService s t = .ok p ↔ t.PlannedAs cat s p := by
  simp only [Catalog.planService, bind_eq_ok_iff, requireDistinct_eq_ok_iff, mapM_eq_ok_iff,
    planContext_eq_ok_iff]
  constructor
  · rintro ⟨⟨⟩, hnodup, cs, hcs, h⟩
    cases h
    exact ⟨rfl, hnodup, hcs⟩
  · intro h
    obtain ⟨name, cs⟩ := p
    obtain ⟨rfl, hnodup, hcs⟩ := h
    exact ⟨(), hnodup, cs, hcs, rfl⟩

theorem planServer_eq_ok_iff {t : Server} {p : ServerPlan} :
    cat.planServer s t = .ok p ↔ t.PlannedAs cat s p := by
  simp only [Catalog.planServer, bind_eq_ok_iff, requireDistinct_eq_ok_iff, mapM_eq_ok_iff,
    planService_eq_ok_iff]
  constructor
  · rintro ⟨⟨⟩, hnodup, vs, hvs, h⟩
    cases h
    exact ⟨rfl, hnodup, hvs⟩
  · intro h
    obtain ⟨name, vs⟩ := p
    obtain ⟨rfl, hnodup, hvs⟩ := h
    exact ⟨(), hnodup, vs, hvs, rfl⟩

theorem planDomain_eq_ok_iff {t : Domain} {p : DomainPlan} :
    cat.planDomain s t = .ok p ↔ t.PlannedAs cat s p := by
  unfold Catalog.planDomain
  split
  next f hf => exact iff_of_false (fun h => nomatch h) fun h => nomatch hf.symm.trans h.valid
  next hv =>
    simp only [bind_eq_ok_iff, requireDistinct_eq_ok_iff, mapM_eq_ok_iff, planServer_eq_ok_iff]
    constructor
    · rintro ⟨⟨⟩, hnodup, vs, hvs, h⟩
      cases h
      exact ⟨rfl, rfl, hv, hnodup, hvs⟩
    · intro h
      obtain ⟨name, settings, vs⟩ := p
      obtain ⟨rfl, rfl, -, hnodup, hvs⟩ := h
      exact ⟨(), hnodup, vs, hvs, rfl⟩

end Switchboard.Topology
