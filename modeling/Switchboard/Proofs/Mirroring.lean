import Switchboard.Proofs.Building

/-!
# Trees that mirror their topologies

Which topologies are built is a rule for each of their parts, `Buildable`: what a
part names is known, and its parts have names of their own. What is built of one is
`MirroredAt`: a new component for each part, in the order of the topology, with all
that the part gives and nothing else. Both speak of the topology and the catalog
alone, of no plan; a topology that breaks a rule anywhere leaves the store as it was.
-/

namespace Switchboard.Topology

open Container (Store Kind)

variable {cat : Catalog} {s s' u v : Store} {c d n : ComponentId}

/-! ## Names of tags -/

/-- The name stands for the tag: `*` for the one that takes everything, another for the last tag of
the catalog that has it. -/
def Catalog.Means (cat : Catalog) (name : String) (t : TypeTag) : Prop :=
  if name = "*" then t = .any
  else t.name = name ∧ ∃ before after, cat.tags = before ++ t :: after ∧ ∀ u ∈ after, u.name ≠ name

/-- The name is `*` or that of a tag of the catalog. -/
def Catalog.Knows (cat : Catalog) (name : String) : Prop := name = "*" ∨ ∃ t ∈ cat.tags, t.name = name

theorem tag_eq_ok_iff {name : String} {t : TypeTag} : cat.tag name = .ok t ↔ cat.Means name t := by
  rw [Catalog.tag, Catalog.Means]
  show (if name = "*" then _ else _) = _ ↔ _
  split
  next => rw [Except.ok.injEq, eq_comm]
  next =>
    rw [orUnknown_eq_ok_iff, List.find?_eq_some_iff_append, decide_eq_true_eq]
    refine and_congr_right fun _ => ?_
    constructor
    · rintro ⟨later, earlier, hsplit, hlater⟩
      refine ⟨earlier.reverse, later.reverse, ?_, fun u hu => ?_⟩
      · rw [← List.reverse_reverse cat.tags, hsplit]
        simp
      · simpa using hlater u (List.mem_reverse.1 hu)
    · rintro ⟨before, after, hsplit, hafter⟩
      refine ⟨after.reverse, before.reverse, by simp [hsplit], fun u hu => ?_⟩
      simpa using hafter u (List.mem_reverse.1 hu)

theorem exists_tag_iff {name : String} : (∃ t, cat.tag name = .ok t) ↔ cat.Knows name := by
  rw [Catalog.tag, Catalog.Knows]
  show (∃ t, (if name = "*" then _ else _) = _) ↔ _
  split
  next h => exact iff_of_true ⟨_, rfl⟩ (.inl h)
  next h =>
    simp only [orUnknown_eq_ok_iff, ← Option.isSome_iff_exists, List.find?_isSome, h, false_or]
    simp

/-! ## What can be built -/

/-- The class is in the catalog and can be recycled if it has to be, and so is the hook, if one is
named. -/
structure Handler.Buildable (cat : Catalog) (s : Store) (h : Handler) : Prop where
  cls : ∃ cls, cat.classes.lookup h.className = some cls ∧
    ((s.classOf cls).instancing = .recyclable → (s.classOf cls).recyclable = true)
  hook : ∀ key, h.hook = some key → ∃ hook, cat.hooks.lookup key = some hook

structure Context.Buildable (cat : Catalog) (s : Store) (t : Context) : Prop where
  request : cat.Knows t.requestType
  response : cat.Knows t.responseType
  distinct : (t.handlers.map (·.name)).Nodup
  handlers : ∀ h ∈ t.handlers, h.Buildable cat s
  defaultHandler : ∀ name, t.defaultHandler = some name → name ∈ t.handlers.map (·.name)

structure Service.Buildable (cat : Catalog) (s : Store) (t : Service) : Prop where
  distinct : (t.contexts.map (·.name)).Nodup
  contexts : ∀ ctx ∈ t.contexts, ctx.Buildable cat s

structure Server.Buildable (cat : Catalog) (s : Store) (t : Server) : Prop where
  distinct : (t.services.map (·.name)).Nodup
  services : ∀ sv ∈ t.services, sv.Buildable cat s

structure Domain.Buildable (cat : Catalog) (s : Store) (t : Domain) : Prop where
  restrictedParam : ¬ Text.IsBlank t.settings.restrictedParam
  pollInterval : t.settings.pollInterval ≠ 0
  distinct : (t.servers.map (·.name)).Nodup
  servers : ∀ sv ∈ t.servers, sv.Buildable cat s

theorem isInvalid_eq_false_iff {cls : HandlerClass} :
    cls.isInvalid = false ↔ (cls.instancing = .recyclable → cls.recyclable = true) := by
  simp [HandlerClass.isInvalid]

theorem validate_eq_ok_iff {settings : Settings} :
    settings.validate = .ok () ↔ ¬ Text.IsBlank settings.restrictedParam ∧ settings.pollInterval ≠ 0 := by
  rw [Settings.validate]
  split
  next h => simp [h]
  next h =>
    split
    next hz => simp [hz]
    next hz => simp [h, hz]

theorem exists_hook_iff {name : Option String} :
    (∃ hook, cat.hook name = .ok hook) ↔
      ∀ key, name = some key → ∃ hook, cat.hooks.lookup key = some hook := by
  simp only [hook_eq_ok_iff]
  cases name with
  | none => simp
  | some key => simp

theorem exists_registration_iff {h : Handler} : (∃ g, h.PlannedAs cat s g) ↔ h.Buildable cat s := by
  constructor
  · rintro ⟨g, hg⟩
    exact ⟨⟨g.cls, hg.cls, isInvalid_eq_false_iff.1 hg.valid⟩, exists_hook_iff.1 ⟨_, hg.hook⟩⟩
  · rintro ⟨⟨cls, hcls, hvalid⟩, hhook⟩
    obtain ⟨hook, hhook⟩ := exists_hook_iff.2 hhook
    let g : Registration := {
      name := h.name, cls, instancing := (s.classOf cls).instancing, params := h.params
      loadOnStartup := h.loadOnStartup, unavailable := h.unavailable, hook }
    exact ⟨g, hcls, isInvalid_eq_false_iff.2 hvalid, hhook, rfl⟩

theorem exists_contextPlan_iff {t : Context} : (∃ p, t.PlannedAs cat s p) ↔ t.Buildable cat s := by
  constructor
  · rintro ⟨p, hp⟩
    refine ⟨exists_tag_iff.1 ⟨_, hp.request⟩, exists_tag_iff.1 ⟨_, hp.response⟩, hp.distinct,
      fun h hh => exists_registration_iff.1 ?_, hp.registered⟩
    exact exists_forall₂_iff.1 ⟨_, hp.handlers⟩ h hh
  · rintro ⟨hreq, hres, hn, hhandlers, hdefault⟩
    obtain ⟨request, hreq⟩ := exists_tag_iff.2 hreq
    obtain ⟨response, hres⟩ := exists_tag_iff.2 hres
    obtain ⟨gs, hgs⟩ := exists_forall₂_iff.2 fun h hh => exists_registration_iff.2 (hhandlers h hh)
    exact ⟨⟨t.name, request, response, gs, t.defaultHandler⟩, rfl, hreq, hres, hn, hgs, rfl, hdefault⟩

theorem exists_servicePlan_iff {t : Service} : (∃ p, t.PlannedAs cat s p) ↔ t.Buildable cat s := by
  constructor
  · rintro ⟨p, hp⟩
    refine ⟨hp.distinct, fun ctx hctx => exists_contextPlan_iff.1 ?_⟩
    exact exists_forall₂_iff.1 ⟨_, hp.contexts⟩ ctx hctx
  · rintro ⟨hn, hcontexts⟩
    obtain ⟨ps, hps⟩ := exists_forall₂_iff.2 fun ctx hctx =>
      exists_contextPlan_iff.2 (hcontexts ctx hctx)
    exact ⟨⟨t.name, ps⟩, rfl, hn, hps⟩

theorem exists_serverPlan_iff {t : Server} : (∃ p, t.PlannedAs cat s p) ↔ t.Buildable cat s := by
  constructor
  · rintro ⟨p, hp⟩
    refine ⟨hp.distinct, fun v hv => exists_servicePlan_iff.1 ?_⟩
    exact exists_forall₂_iff.1 ⟨_, hp.services⟩ v hv
  · rintro ⟨hn, hservices⟩
    obtain ⟨ps, hps⟩ := exists_forall₂_iff.2 fun v hv => exists_servicePlan_iff.2 (hservices v hv)
    exact ⟨⟨t.name, ps⟩, rfl, hn, hps⟩

/-- The rules for all parts come to a plan for the whole. -/
theorem exists_domainPlan_iff {t : Domain} : (∃ p, t.PlannedAs cat s p) ↔ t.Buildable cat s := by
  constructor
  · rintro ⟨p, hp⟩
    obtain ⟨hparam, hinterval⟩ := validate_eq_ok_iff.1 hp.valid
    refine ⟨hparam, hinterval, hp.distinct, fun sv hsv => exists_serverPlan_iff.1 ?_⟩
    exact exists_forall₂_iff.1 ⟨_, hp.servers⟩ sv hsv
  · rintro ⟨hparam, hinterval, hn, hservers⟩
    obtain ⟨ps, hps⟩ := exists_forall₂_iff.2 fun sv hsv => exists_serverPlan_iff.2 (hservers sv hsv)
    exact ⟨⟨t.name, t.settings, ps⟩, rfl, rfl, validate_eq_ok_iff.2 ⟨hparam, hinterval⟩, hn, hps⟩

/-! ## What a tree mirrors -/

/-- The registration is new and attached to the context, with the class and the hook that the catalog
has under the handler's names, and the rest of what the handler gives. -/
def Handler.MirroredAt (cat : Catalog) (context : String) (h : Handler) (s : Store)
    (r : RegistrationId) : Prop :=
  ∃ cls, cat.classes.lookup h.className = some cls ∧ s.registrations.get? r = some {
    name := h.name, cls, instancing := (s.classOf cls).instancing, params := h.params
    loadOnStartup := h.loadOnStartup, unavailable := h.unavailable
    hook := h.hook.bind fun key => cat.hooks.lookup key, context := some context }

/-- A new context has its handlers and nothing retired on its desk. -/
def Context.MirroredAt (cat : Catalog) (settings : Settings) (t : Context) (s : Store)
    (c : ComponentId) : Prop :=
  ∃ request response rs, cat.Means t.requestType request ∧ cat.Means t.responseType response ∧
    s.face c = (some (Store.newManager t.name),
      .context {
        request, response, settings, defaultHandler := t.defaultHandler
        handlers := filed (·.name) t.handlers rs, retired := [] }, []) ∧
    List.Forall₂ (fun h r => h.MirroredAt cat t.name s r) t.handlers rs

/-- A new parent has one child for each part and owns them. -/
def Family {α : Type} (name : String) (kind : Kind) (key : α → String)
    (child : α → Store → ComponentId → Prop) (parts : List α) (s : Store) (c : ComponentId) : Prop :=
  Parent name kind key child parts s c ∧ ∀ d ∈ s.childIds c, s.Owns c d

def Service.MirroredAt (cat : Catalog) (settings : Settings) (t : Service) :
    Store → ComponentId → Prop :=
  Family t.name .service (·.name) (Context.MirroredAt cat settings) t.contexts

def Server.MirroredAt (cat : Catalog) (settings : Settings) (t : Server) :
    Store → ComponentId → Prop :=
  Family t.name .server (·.name) (Service.MirroredAt cat settings) t.services

def Domain.MirroredAt (cat : Catalog) (t : Domain) : Store → ComponentId → Prop :=
  Family t.name (.domain t.settings) (·.name) (Server.MirroredAt cat t.settings) t.servers

/-! ## What building leaves alone -/

/-- Nobody dies and no component goes, and the classes are the same. -/
structure Lasts (s t : Store) : Prop where
  alive : ∀ c, t.isAlive c = s.isAlive c
  classes : t.classes = s.classes
  size : s.components.size ≤ t.components.size

theorem Lasts.refl (s : Store) : Lasts s s := ⟨fun _ => rfl, rfl, Nat.le_refl _⟩

theorem Lasts.trans (h : Lasts s u) (k : Lasts u v) : Lasts s v :=
  ⟨fun c => (k.alive c).trans (h.alive c), k.classes.trans h.classes, Nat.le_trans h.size k.size⟩

theorem lasts_updateComponent {f : Container.Component → Container.Component}
    (h : (f (s.component c)).alive = (s.component c).alive) : Lasts s (s.updateComponent c f) :=
  ⟨Store.updateComponent_keeps Container.Component.alive h, rfl, Nat.le_of_eq (s.size_updateComponent c f).symm⟩

theorem lasts_setOwner (s : Store) (c : ComponentId) (slot : Container.OwnerSlot)
    (previous current : Option String) :
    Lasts s ((s.setOwner c slot).announceOwner c previous current) :=
  (lasts_updateComponent (f := fun d => { d with owner := slot }) rfl).trans
    ⟨fun _ => rfl, rfl, Nat.le_refl _⟩

theorem lasts_release (s : Store) (c d : ComponentId) : Lasts s (s.release c d) := by
  rw [Store.release_announces]
  split
  · exact .refl s
  · exact lasts_setOwner ..

theorem lasts_claim (s : Store) (c d : ComponentId) : Lasts s (s.claim c d).1 := by
  rw [Store.claim_announces]
  split
  · exact .refl s
  · exact .refl s
  · exact lasts_setOwner ..

theorem lasts_detachElsewhere (s : Store) (c d : ComponentId) : Lasts s (s.detachElsewhere c d) := by
  unfold Store.detachElsewhere
  split
  next o _ =>
    split
    · exact .refl s
    · exact (lasts_updateComponent (Container.Component.without_keeps ..).2).trans (lasts_release ..)
  next => exact .refl s

theorem lasts_add (s : Store) (c d : ComponentId) : Lasts s (s.add c d).1 := by
  have hclaim := (lasts_detachElsewhere s c d).trans (lasts_claim (s.detachElsewhere c d) c d)
  unfold Store.add
  split
  next h => rwa [h] at hclaim
  next h =>
    rw [h] at hclaim
    dsimp only at hclaim
    split
    · exact (hclaim.trans (lasts_updateComponent rfl)).trans (lasts_release ..)
    · exact hclaim.trans (lasts_updateComponent rfl)

/-- A component that is new or was never there is alive. -/
theorem lasts_addComponent (s : Store) (name : String) (kind : Kind) :
    Lasts s (s.addComponent name kind).1 where
  alive c := by
    rw [Store.isAlive, Store.isAlive, Store.component_addComponent]
    split
    next h => rw [Store.component_of_le (Nat.le_of_eq h.symm)]; rfl
    next => rfl
  classes := rfl
  size := Nat.le_of_lt (Nat.lt_of_lt_of_eq (Nat.lt_succ_self _) (Roster.size_add ..).symm)

/-! ## Children and their owners -/

/-- What was made is there, in a store that is consistent if it was so before. -/
structure Raises (s : Store) (made : Store × ComponentId) : Prop where
  lasts : Lasts s made.1
  consistent : s.Consistent → made.1.Consistent
  there : made.2 < made.1.components.size

theorem Raises.grow (h : Raises s (u, c)) (hl : Lasts u v) (hc : u.Consistent → v.Consistent) :
    Raises s (v, c) :=
  ⟨h.lasts.trans hl, fun hs => hc (h.consistent hs), Nat.lt_of_lt_of_le h.there hl.size⟩

theorem raises_addComponent (s : Store) (name : String) (kind : Kind) :
    Raises s (s.addComponent name kind) :=
  ⟨lasts_addComponent s name kind, fun hs => hs.addComponent name kind,
    Nat.lt_of_lt_of_eq (Nat.lt_succ_self _) (Roster.size_add ..).symm⟩

theorem Raises.updateDesk (h : Raises s (u, c)) (f : Container.Desk → Container.Desk) :
    Raises s (u.updateDesk c f, c) :=
  h.grow (lasts_updateComponent ((u.component c).updateDesk_keeps f).2.2) fun hu => hu.updateDesk c f

theorem Raises.enrol (h : Raises s (u, c)) (g : Registration) :
    Raises s (((u.addRegistration g).1.insertRegistration c u.registrations.size).1, c) := by
  refine Raises.updateDesk (u := ((u.addRegistration g).1.updateRegistration _ _)) (h.grow ?_ fun hu => ?_) _
  · exact ⟨fun _ => rfl, rfl, Nat.le_refl _⟩
  · exact hu.congr (fun _ hq => hq) (fun _ => rfl) (fun _ => rfl) (fun _ _ => rfl) hu.aligned

theorem raises_buildContext (settings : Settings) (s : Store) (p : ContextPlan) :
    Raises s (buildContext settings s p) := by
  have hall : Raises s (p.registrations.foldl (fun u g =>
        ((u.addRegistration g).1.insertRegistration s.components.size (u.addRegistration g).2).1)
      (s.addComponent p.name (.context { request := p.request, response := p.response, settings })).1,
      s.components.size) :=
    List.foldlRecOn (motive := fun u => Raises s (u, s.components.size)) _ _
      (raises_addComponent ..) fun u hu g _ => hu.enrol g
  unfold buildContext
  dsimp only
  split
  · unfold Store.setDefault
    split
    · exact hall
    · exact hall.updateDesk _
  · exact hall

/-- Children that are raised one by one are added to their parent. -/
theorem raises_buildParent {α : Type} {make : Store → α → Store × ComponentId}
    (hmake : ∀ s a, Raises s (make s a)) (name : String) (kind : Kind) (plans : List α) (s : Store) :
    Raises s (buildParent name kind make plans s) := by
  refine List.foldlRecOn (motive := fun u => Raises s (u, s.components.size)) _ _
    (raises_addComponent s name kind) fun u hu a _ => ?_
  have hchild := hmake u a
  refine hu.grow (hchild.lasts.trans (lasts_add ..)) fun hc => ?_
  exact (hchild.consistent hc).add (Nat.lt_of_lt_of_le hu.there hchild.lasts.size) hchild.there

theorem raises_buildService (settings : Settings) (s : Store) (p : ServicePlan) :
    Raises s (buildService settings s p) :=
  raises_buildParent (raises_buildContext settings) p.name .service p.contexts s

theorem raises_buildServer (settings : Settings) (s : Store) (p : ServerPlan) :
    Raises s (buildServer settings s p) :=
  raises_buildParent (raises_buildService settings) p.name .server p.services s

theorem raises_buildDomain (s : Store) (p : DomainPlan) : Raises s (buildDomain s p) :=
  raises_buildParent (raises_buildServer p.settings) p.name (.domain p.settings) p.servers s

/-- What is built owns its children, as it did not die and nothing below was there before. -/
theorem Raises.owns {made : Store × ComponentId} (h : Raises s made) (hs : s.Consistent)
    (hc : s.components.size ≤ c) (hd : d ∈ made.1.childIds c) : made.1.Owns c d := by
  refine ((h.consistent hs).owned c ?_ d).1 hd
  rw [h.lasts.alive, Store.isAlive, Store.component_of_le hc]
  rfl

/-! ## Plans read back -/

/-- The parts that a parent was planned from are mirrored by its children where their plans are
built. -/
theorem family_of_parent {α β : Type} {name : String} {kind : Kind} {key : α → String}
    {key' : β → String} {child : α → Store → ComponentId → Prop}
    {child' : β → Store → ComponentId → Prop} {plans : List α} {parts : List β} {R : β → α → Prop}
    (hown : ∀ c, n ≤ c → ∀ d ∈ s.childIds c, s.Owns c d) (hc : n ≤ c)
    (hparts : List.Forall₂ R parts plans) (hkey : ∀ b a, R b a → key' b = key a)
    (hchild : ∀ b a d, R b a → n ≤ d → child a s d → child' b s d)
    (h : Parent name kind key child plans s c) : Family name kind key' child' parts s c := by
  obtain ⟨ds, hf, hds⟩ := h
  refine ⟨⟨ds, ?_, (forall₂_trans hparts hds).imp ?_⟩, hown c hc⟩
  · rw [hf, filed, filed, map_eq_map_of_forall₂ hparts hkey]
  · rintro b d ⟨a, hba, hcd, hd⟩
    exact ⟨hcd, hchild b a d hba (Nat.le_trans hc (Nat.le_of_lt hcd)) hd⟩

section

variable {settings : Settings}

theorem Handler.PlannedAs.mirroredAt {h : Handler} {g : Registration} {context : String}
    {r : RegistrationId} (hg : h.PlannedAs cat s g) (hcls : u.classes = s.classes)
    (hget : u.registrations.get? r = some (g.attach context)) : h.MirroredAt cat context u r := by
  have hhook : g.hook = h.hook.bind fun key => cat.hooks.lookup key := by
    rcases hook_eq_ok_iff.1 hg.hook with ⟨hn, hh⟩ | ⟨key, hook, hkey, hh, hlook⟩
    · rw [hn, hh]; rfl
    · rw [hkey, hh, Option.bind_some, hlook]
  have hclass : u.classOf g.cls = s.classOf g.cls := by rw [Store.classOf, hcls, Store.classOf]
  refine ⟨g.cls, hg.cls, ?_⟩
  rw [hget, hg.rest, hclass, hhook]
  rfl

theorem Context.PlannedAs.mirroredAt {t : Context} {p : ContextPlan} (hp : t.PlannedAs cat s p)
    (hcls : u.classes = s.classes) (hb : p.BuiltAt settings u c) : t.MirroredAt cat settings u c := by
  obtain ⟨rs, hf, hrs⟩ := hb
  refine ⟨p.request, p.response, rs, tag_eq_ok_iff.1 hp.request, tag_eq_ok_iff.1 hp.response, ?_,
    (forall₂_trans hp.handlers hrs).imp ?_⟩
  · rw [hf, filed, filed, hp.names, hp.name, hp.defaultHandler]
  · rintro h r ⟨g, hg, hget⟩
    exact hg.mirroredAt hcls (hp.name ▸ hget)

variable (hown : ∀ c, n ≤ c → ∀ d ∈ u.childIds c, u.Owns c d) (hcls : u.classes = s.classes)
include hown hcls

theorem Service.PlannedAs.mirroredAt {t : Service} {p : ServicePlan} (hp : t.PlannedAs cat s p)
    (hc : n ≤ c) (hb : p.BuiltAt settings u c) : t.MirroredAt cat settings u c := by
  rw [ServicePlan.BuiltAt, hp.name] at hb
  exact family_of_parent hown hc hp.contexts (fun _ _ hctx => hctx.name.symm)
    (fun _ _ _ hctx _ hd => hctx.mirroredAt hcls hd) hb

theorem Server.PlannedAs.mirroredAt {t : Server} {p : ServerPlan} (hp : t.PlannedAs cat s p)
    (hc : n ≤ c) (hb : p.BuiltAt settings u c) : t.MirroredAt cat settings u c := by
  rw [ServerPlan.BuiltAt, hp.name] at hb
  exact family_of_parent hown hc hp.services (fun _ _ hv => hv.name.symm)
    (fun _ _ _ hv hd hb => hv.mirroredAt hown hcls hd hb) hb

theorem Domain.PlannedAs.mirroredAt {t : Domain} {p : DomainPlan} (hp : t.PlannedAs cat s p)
    (hc : n ≤ c) (hb : p.BuiltAt u c) : t.MirroredAt cat u c := by
  rw [DomainPlan.BuiltAt, hp.name, hp.settings] at hb
  exact family_of_parent hown hc hp.servers (fun _ _ hsv => hsv.name.symm)
    (fun _ _ _ hsv hd hb => hsv.mirroredAt hown hcls hd hb) hb

end

/-! ## Building -/

theorem exists_built_iff {t : Domain} :
    (∃ s₁ d, build cat s t = (s₁, .ok d)) ↔ t.Buildable cat s := by
  rw [← exists_domainPlan_iff]
  simp only [← planDomain_eq_ok_iff, build]
  cases cat.planDomain s t with
  | error f => simp
  | ok p => simp

theorem build_error {t : Domain} {s₁ : Store} {f : Container.Fault}
    (h : build cat s t = (s₁, .error f)) : s₁ = s := by
  unfold build at h
  split at h
  next => exact (congrArg (·.1) h).symm
  next => cases h

theorem build_raises {t : Domain} {s₁ : Store} (h : build cat s t = (s₁, .ok d)) :
    Raises s (s₁, d) := by
  unfold build at h
  split at h
  next => cases h
  next p _ =>
    have hraises := raises_buildDomain s p
    dsimp only at h
    cases h
    exact hraises

theorem build_mirrors {t : Domain} {s₁ : Store} (hs : s.Consistent)
    (h : build cat s t = (s₁, .ok d)) : t.MirroredAt cat s₁ d := by
  obtain ⟨p, hp, hmade⟩ := build_ok hs.aligned h
  have hraises := build_raises h
  exact hp.mirroredAt (n := s.components.size) (fun c hc d hd => hraises.owns hs hc hd) hraises.lasts.classes
    (Nat.le_of_eq hmade.isNew.symm) hmade.built

/-- Building is exact. A topology has a tree exactly when each of its parts can be built: its
settings are valid, siblings have different names on every level, the payload types, classes and
hooks that it names are in the catalog, classes can be recycled that have to be, and the default of
a context is one of its handlers. The tree then has a new component for each part in the order of
the topology, with what the part gives, and what was there before looks the same. Of a topology
that breaks a rule nothing is built. -/
theorem build_exact (hs : s.Consistent) (cat : Catalog) (t : Domain) :
    ((∃ s₁ d, build cat s t = (s₁, .ok d)) ↔ t.Buildable cat s) ∧
    (∀ s₁ d, build cat s t = (s₁, .ok d) → t.MirroredAt cat s₁ d ∧ s.KeepsFrom 0 s₁) ∧
    ∀ s₁ f, build cat s t = (s₁, .error f) → s₁ = s := by
  refine ⟨exists_built_iff, fun s₁ d h => ⟨build_mirrors hs h, ?_⟩, fun s₁ f h => build_error h⟩
  obtain ⟨p, -, hmade⟩ := build_ok hs.aligned h
  exact hmade.keeps

/-- Two handlers, of which the second one is the default. -/
def sampleEcho : Context where
  name := "echo"
  requestType := "text"
  responseType := "*"
  defaultHandler := some "pooled"
  handlers := [
    { name := "plain", className := "idle", hook := some "gate" },
    { name := "pooled", className := "pool", loadOnStartup := true }]

def sampleAudit : Context where
  name := "audit"
  requestType := "*"
  responseType := "text"

def sampleDraft : Domain where
  name := "domain"
  servers := [{
    name := "server"
    services := [{ name := "echoes", contexts := [sampleEcho, sampleAudit] }, { name := "spare" }] }]

/-- Of the two tags named `text` the second one counts. -/
def sampleRegister : Catalog where
  classes := [("idle", 0), ("pool", 1)]
  tags := [.root "text", .extending "text" (.root "data")]
  hooks := [("gate", 0)]

/-- A store with a component of its own, and with a class whose handlers are recycled. -/
def sampleYard : Store :=
  { (({} : Store).addComponent "domain" .server).1 with
    classes := ⟨[.idle, { HandlerClass.idle with instancing := .recyclable, recyclable := true }]⟩
    hooks := ⟨[CapabilityHook.denyAll]⟩ }

theorem build_exact_sample : sampleYard.Consistent ∧ sampleDraft.Buildable sampleRegister sampleYard ∧
    ∃ s₁ d, build sampleRegister sampleYard sampleDraft = (s₁, .ok d) ∧
      sampleDraft.MirroredAt sampleRegister s₁ d := by
  have hs : sampleYard.Consistent :=
    (Store.consistent_empty.addComponent "domain" .server).congr (fun _ hq => hq) (fun _ => rfl)
      (fun _ => rfl) (fun _ _ => rfl) rfl
  have hecho : sampleEcho.Buildable sampleRegister sampleYard := by
    refine ⟨.inr ⟨_, List.mem_cons_self, rfl⟩, .inl rfl, by decide, ?_, by simp [sampleEcho]⟩
    refine List.forall_mem_cons.2 ⟨⟨⟨0, rfl, by decide⟩, by simp [sampleRegister]⟩, ?_⟩
    exact List.forall_mem_singleton.2 ⟨⟨1, rfl, fun _ => rfl⟩, by simp⟩
  have haudit : sampleAudit.Buildable sampleRegister sampleYard :=
    ⟨.inl rfl, .inr ⟨_, List.mem_cons_self, rfl⟩, .nil, by simp [sampleAudit], by simp [sampleAudit]⟩
  have hdraft : sampleDraft.Buildable sampleRegister sampleYard := by
    refine ⟨by decide +kernel, by decide, by decide, List.forall_mem_singleton.2 ⟨by decide, ?_⟩⟩
    refine List.forall_mem_cons.2 ⟨⟨by decide, ?_⟩, List.forall_mem_singleton.2 ⟨.nil, by simp⟩⟩
    exact List.forall_mem_cons.2 ⟨hecho, List.forall_mem_singleton.2 haudit⟩
  obtain ⟨hbuilt, hmirrors, -⟩ := build_exact hs sampleRegister sampleDraft
  obtain ⟨s₁, d, h⟩ := hbuilt.2 hdraft
  exact ⟨hs, hdraft, s₁, d, h, (hmirrors s₁ d h).1⟩

end Switchboard.Topology
