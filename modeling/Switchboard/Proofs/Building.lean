import Switchboard.Proofs.Planning
import Switchboard.Proofs.Registries
import Switchboard.Topology.Building

/-!
# What is built

The tree that is built from a plan has what the plan says, in its order: `BuiltAt`
states it of a part of a plan and a component. A part is built of new components
and registrations, and what there was before keeps its face: its name, its state,
its kind and its children. So a part that is complete stays as it is while the
next ones are built, and only the parent that it is added to gets another child.
The registrations of a part are numbered through (`Issued`), so no two parts
share one.
-/

namespace Switchboard

open Container
open Lifecycle (Manager Subscription)

namespace Container.Store

/-! ## Faces -/

/-- Components have the same number in the store and on its board. -/
def Aligned (s : Store) : Prop := s.board.names.length = s.components.size

/-- What is seen of a component, apart from its owner. -/
def face (s : Store) (c : ComponentId) : Option Manager × Kind × Directory ComponentId :=
  (s.board.manager? c, (s.component c).kind, (s.component c).children)

/-- The components from `n` on that were there have the same face, and the registrations that were
there are the same. -/
structure KeepsFrom (n : ComponentId) (s t : Store) : Prop where
  faces : ∀ c, n ≤ c → c < s.components.size → t.face c = s.face c
  size : s.components.size ≤ t.components.size
  registrations : ∀ r g, s.registrations.get? r = some g → t.registrations.get? r = some g
  hooks : t.hooks = s.hooks

/-- The registrations that are filed below a component: those of its desk, or of its children on so
many levels. -/
def filedBelow : Nat → Store → ComponentId → List RegistrationId
  | 0, s, c => ((s.desk? c).map fun d => Directory.values d.handlers).getD []
  | n + 1, s, c => (s.childIds c).flatMap (filedBelow n s)

variable {s t u : Store} {c d n : ComponentId}

theorem KeepsFrom.mono (h : KeepsFrom n s t) (hd : n ≤ d) : KeepsFrom d s t :=
  ⟨fun c hc => h.faces c (Nat.le_trans hd hc), h.size, h.registrations, h.hooks⟩

/-- Only one of the components that were there, and what is new, may have another face; the one keeps
its manager. -/
structure GrowsAt (c : ComponentId) (s t : Store) : Prop where
  faces : ∀ d ≠ c, d < s.components.size → t.face d = s.face d
  manager : t.board.manager? c = s.board.manager? c
  owners : ∀ d < s.components.size, (t.component d).owner = (s.component d).owner
  aligned : s.Aligned → t.Aligned
  size : s.components.size ≤ t.components.size
  registrations : ∀ r g, s.registrations.get? r = some g → t.registrations.get? r = some g
  hooks : t.hooks = s.hooks

theorem GrowsAt.keepsFrom (h : GrowsAt c s t) (hn : c < n) : KeepsFrom n s t :=
  ⟨fun d hd => h.faces d (Nat.ne_of_gt (Nat.lt_of_lt_of_le hn hd)), h.size, h.registrations, h.hooks⟩

theorem Aligned.manager?_eq_none (h : s.Aligned) (hc : s.components.size ≤ c) :
    s.board.manager? c = none := by
  refine List.getElem?_eq_none ?_
  rw [Aligned, Lifecycle.Board.names, List.length_map] at h
  omega

theorem Aligned.lt (h : s.Aligned) {m : Manager} (hm : s.board.manager? c = some m) :
    c < s.components.size := by
  refine Nat.lt_of_not_le fun hle => ?_
  rw [h.manager?_eq_none hle] at hm
  cases hm

/-! ## A new component -/

/-- A component in its first state, with the listener that counts its moves. -/
def newManager (name : String) : Manager := { name, subscriptions := [.quiet "counter"] }

section

variable (name : String) (kind : Kind)

theorem component_addComponent (s : Store) (c : ComponentId) :
    (s.addComponent name kind).1.component c =
      if c = s.components.size then { kind } else s.component c := by
  show (s.components.add { kind }).getD c default = _
  rw [Roster.getD, Roster.get?_add]
  split <;> rfl

theorem Aligned.addComponent (h : s.Aligned) : (s.addComponent name kind).1.Aligned := by
  show (s.board.add name _).1.names.length = (s.components.add _).size
  rw [Lifecycle.Board.names_add, List.length_append, Roster.size_add, h]
  rfl

theorem Aligned.manager?_addComponent (h : s.Aligned) (c : ComponentId) :
    (s.addComponent name kind).1.board.manager? c =
      if c = s.components.size then some (newManager name) else s.board.manager? c := by
  rw [Aligned, Lifecycle.Board.names, List.length_map] at h
  show (s.board.managers ++ [newManager name])[c]? = _
  rw [← h]
  by_cases hc : c = s.board.managers.length
  · simp [hc]
  · rw [if_neg hc]
    by_cases hlt : c < s.board.managers.length
    · exact List.getElem?_append_left hlt
    · have hle : s.board.managers.length < c := Nat.lt_of_le_of_ne (Nat.le_of_not_lt hlt) (Ne.symm hc)
      rw [List.getElem?_eq_none (by simpa using Nat.succ_le_of_lt hle)]
      exact (List.getElem?_eq_none (Nat.le_of_lt hle)).symm

theorem Aligned.face_addComponent (h : s.Aligned) (c : ComponentId) :
    (s.addComponent name kind).1.face c =
      if c = s.components.size then (some (newManager name), kind, []) else s.face c := by
  rw [face, h.manager?_addComponent, component_addComponent]
  split <;> rfl

theorem Aligned.keeps_addComponent (h : s.Aligned) :
    KeepsFrom 0 s (s.addComponent name kind).1 where
  faces c _ hc := by rw [h.face_addComponent, if_neg (Nat.ne_of_lt hc)]
  size := Nat.le_of_lt (Nat.lt_of_lt_of_eq (Nat.lt_succ_self _) (Roster.size_add ..).symm)
  registrations _ _ hr := hr
  hooks := rfl

end

/-! ## Adding a new child -/

theorem face_updateComponent (f : Component → Component) (d : ComponentId) :
    (s.updateComponent c f).face d =
      if c = d ∧ c < s.components.size then
        (s.board.manager? d, (f (s.component d)).kind, (f (s.component d)).children)
      else s.face d := by
  rw [face, component_updateComponent]
  split <;> rfl

/-- The store after a claim that was granted. -/
def grant (s : Store) (p d : ComponentId) : Store :=
  (s.setOwner d (some ⟨s.name p, p⟩)).announceOwner d none (some (s.name p))

section

variable {p : ComponentId} {name : String}

theorem unmoved_grant (s : Store) (p d : ComponentId) : Unmoved s (s.grant p d) :=
  (s.unmoved_setOwner d (some ⟨s.name p, p⟩)).trans (unmoved_announceOwner _ d none (some (s.name p)))

/-- The listener of a new child only counts. -/
theorem managers_grant (hd : s.board.manager? d = some (newManager name)) :
    (s.grant p d).board.managers = s.board.managers := by
  refine Lifecycle.Board.managers_announceFrom fun l hl => ?_
  have hactive : s.board.active d = (newManager name).active := by
    rw [Lifecycle.Board.active, hd, Option.map_some, Option.getD_some]
  have hl : l ∈ s.board.active d := hl
  rw [hactive] at hl
  obtain rfl : l = (0, .quiet "counter") := List.mem_singleton.1 hl
  exact Lifecycle.Board.respond_quiet ..

theorem manager?_grant (hd : s.board.manager? d = some (newManager name)) (c : ComponentId) :
    (s.grant p d).board.manager? c = s.board.manager? c := congrArg (·[c]?) (managers_grant hd)

theorem kind_grant (s : Store) (p d c : ComponentId) :
    ((s.grant p d).component c).kind = (s.component c).kind :=
  updateComponent_keeps Component.kind rfl c

theorem face_grant (hd : s.board.manager? d = some (newManager name)) (c : ComponentId) :
    (s.grant p d).face c = s.face c := by
  rw [face, kind_grant, manager?_grant hd, (s.unmoved_grant p d).children, face]

theorem owner_grant (hc : c ≠ d) : ((s.grant p d).component c).owner = (s.component c).owner := by
  show ((s.setOwner d _).component c).owner = _
  rw [setOwner, component_updateComponent, if_neg fun h => hc h.1.symm]

/-- No claim on a new child is refused. -/
theorem claim_new (hd : s.board.manager? d = some (newManager name))
    (hown : (s.component d).owner = none) : s.claim p d = (s.grant p d, .ok true) := by
  have hstate : s.state d = .new := by
    rw [state, Lifecycle.Board.state, hd]
    rfl
  rw [claim_announces, hown, hstate]
  rfl

/-- A new child stands after the other children of its parent, and nothing else is different. -/
structure Adopts (s : Store) (p d : ComponentId) (name : String) (t : Store) : Prop where
  face : t.face p = (s.board.manager? p, (s.component p).kind, (s.component p).children ++ [(name, d)])
  faces : ∀ c ≠ p, t.face c = s.face c
  owners : ∀ c ≠ d, (t.component c).owner = (s.component c).owner
  names : t.board.names = s.board.names
  size : t.components.size = s.components.size
  registrations : t.registrations = s.registrations
  hooks : t.hooks = s.hooks

/-- A new child is nobody's to give up, and under a new name it replaces none. -/
theorem adopts_add (hd : s.board.manager? d = some (newManager name))
    (hown : (s.component d).owner = none) (hp : p < s.components.size)
    (hname : name ∉ Directory.names (s.component p).children) :
    s.Adopts p d name (s.add p d).1 := by
  have hdetach : s.detachElsewhere p d = s := by
    rw [detachElsewhere, owner?, hown]
    rfl
  have hu := s.unmoved_grant p d
  have hnamed : (s.grant p d).name d = name := by
    rw [name_eq_of_names hu.names, Store.name, Lifecycle.Board.name, hd]
    rfl
  have hrival : (s.grant p d).rival? p d = none := by
    rw [rival?, child?, hnamed, hu.children, Directory.find?_eq_none hname]
    rfl
  have hadd : (s.add p d).1 = (s.grant p d).putChild p d := by
    rw [add, hdetach, claim_new hd hown]
    dsimp only
    rw [hrival]
  rw [hadd, putChild]
  refine ⟨?_, fun c hc => ?_, fun c hc => ?_, hu.names, ?_, rfl, rfl⟩
  · rw [face_updateComponent, if_pos ⟨rfl, hu.size ▸ hp⟩, manager?_grant hd, kind_grant, hu.children,
      hnamed, Directory.put_eq_append hname]
  · rw [face_updateComponent, if_neg fun h => hc h.1.symm, face_grant hd]
  · rw [updateComponent_keeps Component.owner rfl, owner_grant hc]
  · rw [size_updateComponent, hu.size]

theorem Adopts.keepsFrom (h : s.Adopts p d name t) (hn : p < n) : KeepsFrom n s t where
  faces c hc _ := h.faces c (Nat.ne_of_gt (Nat.lt_of_lt_of_le hn hc))
  size := Nat.le_of_eq h.size.symm
  registrations _ _ hr := h.registrations ▸ hr
  hooks := h.hooks

end

/-! ## Desks -/

theorem face_updateDesk_of_ne (h : d ≠ c) (f : Desk → Desk) : (s.updateDesk c f).face d = s.face d := by
  rw [updateDesk, face_updateComponent, if_neg fun hh => h hh.1.symm]

theorem face_updateDesk {m : Option Manager} {desk : Desk} {children : Directory ComponentId}
    (h : s.face c = (m, .context desk, children)) (hc : c < s.components.size) (f : Desk → Desk) :
    (s.updateDesk c f).face c = (m, .context (f desk), children) := by
  have hm : s.board.manager? c = m := congrArg (·.1) h
  have hk : (s.component c).kind = .context desk := congrArg (·.2.1) h
  have hch : (s.component c).children = children := congrArg (·.2.2) h
  have hd : (s.component c).updateDesk f = { s.component c with kind := .context (f desk) } := by
    rw [Component.updateDesk, hk]
  rw [updateDesk, face_updateComponent, if_pos ⟨rfl, hc⟩, hd, hm, hch]

theorem desk?_of_face {m : Option Manager} {desk : Desk} {children : Directory ComponentId}
    (h : s.face c = (m, .context desk, children)) : s.desk? c = some desk := by
  have hk : (s.component c).kind = .context desk := congrArg (·.2.1) h
  rw [desk?, Component.desk?, hk]

theorem filedBelow_of_desk {desk : Desk} (h : s.desk? c = some desk) :
    s.filedBelow 0 c = Directory.values desk.handlers := by
  rw [filedBelow, h, Option.map_some, Option.getD_some]

theorem childIds_of_face {m : Option Manager} {kind : Kind} {children : Directory ComponentId}
    (h : s.face c = (m, kind, children)) : s.childIds c = Directory.values children := by
  have hch : (s.component c).children = children := congrArg (·.2.2) h
  rw [childIds, hch]

theorem growsAt_updateDesk (s : Store) (c : ComponentId) (f : Desk → Desk) :
    GrowsAt c s (s.updateDesk c f) where
  faces _ hd _ := face_updateDesk_of_ne hd f
  manager := rfl
  owners _ _ := updateComponent_keeps Component.owner ((s.component c).updateDesk_keeps f).2.1 _
  aligned h := h.trans (s.size_updateComponent c _).symm
  size := Nat.le_of_eq (s.size_updateComponent c _).symm
  registrations _ _ h := h
  hooks := rfl

theorem GrowsAt.trans (h : GrowsAt c s t) (k : GrowsAt c t u) : GrowsAt c s u where
  faces d hd hs := (k.faces d hd (Nat.lt_of_lt_of_le hs h.size)).trans (h.faces d hd hs)
  manager := k.manager.trans h.manager
  owners d hd := (k.owners d (Nat.lt_of_lt_of_le hd h.size)).trans (h.owners d hd)
  aligned hs := k.aligned (h.aligned hs)
  size := Nat.le_trans h.size k.size
  registrations r g hr := k.registrations r g (h.registrations r g hr)
  hooks := k.hooks.trans h.hooks

end Container.Store

/-! ## Items under their names -/

/-- Items under the names of what they were made from. -/
def filed {α : Type} (key : α → String) (as : List α) (items : List Nat) : Directory Nat :=
  (as.map key).zip items

section

variable {α : Type} {R : α → Nat → Prop} {key : α → String} {as : List α} {a : α} {items : List Nat}

theorem names_filed (h : List.Forall₂ R as items) : Directory.names (filed key as items) = as.map key :=
  List.map_fst_zip (by simp [h.length_eq])

theorem values_filed (h : List.Forall₂ R as items) : Directory.values (filed key as items) = items :=
  List.map_snd_zip (by simp [h.length_eq])

theorem filed_append (h : List.Forall₂ R as items) (a : α) (i : Nat) :
    filed key (as ++ [a]) (items ++ [i]) = filed key as items ++ [(key a, i)] := by
  rw [filed, List.map_append, List.zip_append (by rw [List.length_map, h.length_eq])]
  rfl

theorem find?_filed (h : List.Forall₂ R as items) (hn : (as.map key).Nodup) (ha : a ∈ as) :
    ∃ i, Directory.find? (key a) (filed key as items) = some i ∧ R a i := by
  induction h with
  | nil => cases ha
  | @cons b i bs items hb hbs ih =>
    rw [List.map_cons, List.nodup_cons] at hn
    rcases List.mem_cons.1 ha with rfl | ha
    · exact ⟨i, by simp [filed, Directory.find?], hb⟩
    · have hne : key b ≠ key a := fun he => hn.1 (he ▸ List.mem_map_of_mem ha)
      obtain ⟨j, hj, hr⟩ := ih hn.2 ha
      refine ⟨j, ?_, hr⟩
      show (if key b = key a then some i else Directory.find? (key a) (filed key bs items)) = _
      rw [if_neg hne, hj]

/-- What a fold builds up, item by item. -/
theorem foldl_prefix {β : Type} {f : β → α → β} {I : List α → β → Prop} {b : β} (start : I [] b)
    (step : ∀ before a after b, as = before ++ a :: after → I before b → I (before ++ [a]) (f b a)) :
    I as (as.foldl f b) := by
  suffices ∀ after before b, as = before ++ after → I before b → I as (after.foldl f b) from
    this as [] b rfl start
  intro after
  induction after with
  | nil =>
    intro before b h hb
    rw [List.append_nil] at h
    exact h ▸ hb
  | cons a after ih =>
    intro before b h hb
    exact ih (before ++ [a]) (f b a) (by simp [h]) (step before a after b h hb)

end

namespace Topology

open Container (Store)

/-! ## Parts of a tree -/

/-- At the component stands a context with the handlers of its plan. -/
def ContextPlan.BuiltAt (settings : Settings) (p : ContextPlan) (s : Store) (c : ComponentId) : Prop :=
  ∃ rs, s.face c = (some (Store.newManager p.name),
      .context {
        request := p.request, response := p.response, settings
        handlers := filed (·.name) p.registrations rs, defaultHandler := p.defaultHandler }, []) ∧
    List.Forall₂ (fun g r => s.registrations.get? r = some (g.attach p.name)) p.registrations rs

/-- At the component stands a parent, whose children are what their plans say. Each of them was made
after it. -/
def Parent {α : Type} (name : String) (kind : Kind) (key : α → String)
    (child : α → Store → ComponentId → Prop) (plans : List α) (s : Store) (c : ComponentId) : Prop :=
  ∃ ds, s.face c = (some (Store.newManager name), kind, filed key plans ds) ∧
    List.Forall₂ (fun a d => c < d ∧ child a s d) plans ds

def ServicePlan.BuiltAt (settings : Settings) (p : ServicePlan) : Store → ComponentId → Prop :=
  Parent p.name .service (·.name) (ContextPlan.BuiltAt settings) p.contexts

def ServerPlan.BuiltAt (settings : Settings) (p : ServerPlan) : Store → ComponentId → Prop :=
  Parent p.name .server (·.name) (ServicePlan.BuiltAt settings) p.services

def DomainPlan.BuiltAt (p : DomainPlan) : Store → ComponentId → Prop :=
  Parent p.name (.domain p.settings) (·.name) (ServerPlan.BuiltAt p.settings) p.servers

/-- What stands at a component, and what is filed on so many levels below it, is not concerned with the
components before it. -/
def Stable (n : Nat) (built : Store → ComponentId → Prop) : Prop :=
  ∀ s t c, s.Aligned → s.KeepsFrom c t → built s c → built t c ∧ t.filedBelow n c = s.filedBelow n c

theorem ContextPlan.stable (settings : Settings) (p : ContextPlan) : Stable 0 (p.BuiltAt settings) := by
  rintro s t c ha hk ⟨rs, hf, hrs⟩
  have hc : c < s.components.size := ha.lt (congrArg (·.1) hf)
  have hft := (hk.faces c (Nat.le_refl c) hc).trans hf
  refine ⟨⟨rs, hft, hrs.imp fun g r hr => hk.registrations r _ hr⟩, ?_⟩
  rw [Store.filedBelow_of_desk (Store.desk?_of_face hft), Store.filedBelow_of_desk (Store.desk?_of_face hf)]

section

variable {α : Type} {name : String} {kind : Kind} {key : α → String}
  {child : α → Store → ComponentId → Prop} {plans : List α} {s : Store} {c : ComponentId}

theorem Parent.filedBelow {ds : List ComponentId} (hf : s.face c = (some (Store.newManager name), kind,
    filed key plans ds)) (hds : List.Forall₂ (fun a d => c < d ∧ child a s d) plans ds) (n : Nat) :
    s.filedBelow (n + 1) c = ds.flatMap (s.filedBelow n) := by
  rw [Store.filedBelow, Store.childIds_of_face hf, values_filed hds]

theorem Parent.stable {n : Nat} (hchild : ∀ a, Stable n (child a)) :
    Stable (n + 1) (Parent name kind key child plans) := by
  rintro s t c ha hk ⟨ds, hf, hds⟩
  have hc : c < s.components.size := ha.lt (congrArg (·.1) hf)
  have hft := (hk.faces c (Nat.le_refl c) hc).trans hf
  have hkept : ∀ a d, c < d ∧ child a s d → child a t d ∧ t.filedBelow n d = s.filedBelow n d :=
    fun a d hd => hchild a s t d ha (hk.mono (Nat.le_of_lt hd.1)) hd.2
  have hdt : List.Forall₂ (fun a d => c < d ∧ child a t d) plans ds :=
    hds.imp fun a d hd => ⟨hd.1, (hkept a d hd).1⟩
  refine ⟨⟨ds, hft, hdt⟩, ?_⟩
  rw [Parent.filedBelow hft hdt, Parent.filedBelow hf hds]
  refine List.flatMap_congr fun d hd => ?_
  obtain ⟨a, -, had⟩ := exists_left_of_mem hds hd
  exact (hkept a d had).2

theorem Parent.exists_plan (h : Parent name kind key child plans s c) {d : ComponentId}
    (hd : d ∈ s.childIds c) : ∃ a ∈ plans, child a s d := by
  obtain ⟨ds, hf, hds⟩ := h
  rw [Store.childIds_of_face hf, values_filed hds] at hd
  obtain ⟨a, ha, -, hb⟩ := exists_left_of_mem hds hd
  exact ⟨a, ha, hb⟩

end

/-! ## Making a part -/

/-- Numbers that were given out, each once, from one count up to another. -/
structure Issued (a b : Nat) (rs : List RegistrationId) : Prop where
  le : a ≤ b
  nodup : rs.Nodup
  bounds : ∀ r ∈ rs, a ≤ r ∧ r < b

theorem issued_nil (a : Nat) : Issued a a [] := ⟨Nat.le_refl a, List.nodup_nil, fun _ h => nomatch h⟩

theorem issued_singleton (a : Nat) : Issued a (a + 1) [a] :=
  ⟨Nat.le_succ a, List.pairwise_singleton _ a, List.forall_mem_singleton.2 ⟨Nat.le_refl a, Nat.lt_succ_self a⟩⟩

theorem Issued.append {a b c : Nat} {rs rs' : List RegistrationId} (h : Issued a b rs) (k : Issued b c rs') :
    Issued a c (rs ++ rs') := by
  refine ⟨Nat.le_trans h.le k.le, List.nodup_append.2 ⟨h.nodup, k.nodup, ?_⟩, fun r hr => ?_⟩
  · rintro r hr _ hr' rfl
    exact absurd (h.bounds r hr).2 (Nat.not_lt.2 (k.bounds r hr').1)
  · rcases List.mem_append.1 hr with hr | hr
    · exact ⟨(h.bounds r hr).1, Nat.lt_of_lt_of_le (h.bounds r hr).2 k.le⟩
    · exact ⟨Nat.le_trans h.le (k.bounds r hr).1, (k.bounds r hr).2⟩

/-- What was made is new and nobody's, and is as `built` says; what was there is as it was. The
registrations on so many levels below it were added meanwhile. -/
structure Makes (n : Nat) (name : String) (built : Store → ComponentId → Prop) (s : Store)
    (made : Store × ComponentId) : Prop where
  aligned : made.1.Aligned
  keeps : s.KeepsFrom 0 made.1
  isNew : made.2 = s.components.size
  manager : made.1.board.manager? made.2 = some (Store.newManager name)
  owner : (made.1.component made.2).owner = none
  owners : ∀ c < s.components.size, (made.1.component c).owner = (s.component c).owner
  built : built made.1 made.2
  issued : Issued s.registrations.size made.1.registrations.size (made.1.filedBelow n made.2)

section

variable {name : String} {kind : Kind} {built built' : Store → ComponentId → Prop} {s u v w : Store}
  {c d : ComponentId} {n : Nat}

theorem makes_addComponent (h : s.Aligned) (name : String) (kind : Kind)
    (hnone : ∀ (t : Store) c, t.face c = (some (Store.newManager name), kind, []) → t.filedBelow n c = []) :
    Makes n name (fun t c => t.face c = (some (Store.newManager name), kind, [])) s
      (s.addComponent name kind) where
  aligned := h.addComponent name kind
  keeps := h.keeps_addComponent name kind
  isNew := rfl
  manager := (h.manager?_addComponent name kind _).trans (if_pos rfl)
  owner := by
    rw [Store.component_addComponent]
    exact congrArg Component.owner (if_pos rfl)
  owners c hc := by rw [Store.component_addComponent, if_neg (Nat.ne_of_lt hc)]
  built := (h.face_addComponent name kind _).trans (if_pos rfl)
  issued := by
    rw [hnone _ (s.addComponent name kind).2 ((h.face_addComponent name kind _).trans (if_pos rfl))]
    exact issued_nil _

theorem Makes.lt (h : Makes n name built s (u, c)) : c < u.components.size := h.aligned.lt h.manager

/-- Work on the part that is being made goes on. -/
theorem Makes.grow (h : Makes n name built s (u, c)) (hw : u.GrowsAt c w) (hb : built' w c)
    (hi : Issued s.registrations.size w.registrations.size (w.filedBelow n c)) :
    Makes n name built' s (w, c) where
  aligned := hw.aligned h.aligned
  keeps := by
    have hsize := h.keeps.size
    refine ⟨fun d hn hd => ?_, Nat.le_trans hsize hw.size,
      fun r g hr => hw.registrations r g (h.keeps.registrations r g hr), hw.hooks.trans h.keeps.hooks⟩
    have hnew : c = s.components.size := h.isNew
    have hdc : d ≠ c := fun he => Nat.ne_of_lt hd (he.trans hnew)
    exact (hw.faces d hdc (Nat.lt_of_lt_of_le hd hsize)).trans (h.keeps.faces d hn hd)
  isNew := h.isNew
  manager := hw.manager.trans h.manager
  owner := (hw.owners c h.lt).trans h.owner
  owners d hd := (hw.owners d (Nat.lt_of_lt_of_le hd h.keeps.size)).trans (h.owners d hd)
  built := hb
  issued := hi

/-! ## Parents -/

variable {α : Type} {key : α → String} {child : α → Store → ComponentId → Prop} {plans : List α} {a : α}

/-- A part that is complete is added to its parent. -/
theorem Makes.adopt (hchild : ∀ a, Stable n (child a))
    (hu : Makes (n + 1) name (Parent name kind key child plans) s (u, c))
    (hv : Makes n (key a) (child a) u (v, d)) (hnew : key a ∉ plans.map key) :
    Makes (n + 1) name (Parent name kind key child (plans ++ [a])) s ((v.add c d).1, c) := by
  obtain ⟨ds, hf, hds⟩ := hu.built
  have hcd : c < d := Nat.lt_of_lt_of_eq hu.lt hv.isNew.symm
  have hfv : v.face c = (some (Store.newManager name), kind, filed key plans ds) :=
    (hv.keeps.faces c (Nat.zero_le c) hu.lt).trans hf
  have hch : (v.component c).children = filed key plans ds := congrArg (·.2.2) hfv
  have hlt : c < v.components.size := Nat.lt_of_lt_of_le hu.lt hv.keeps.size
  have hadd : v.Adopts c d (key a) (v.add c d).1 :=
    Store.adopts_add hv.manager hv.owner hlt (by rwa [hch, names_filed hds])
  generalize (v.add c d).1 = w at hadd
  have hgrow : u.GrowsAt c w := by
    refine ⟨fun b hb hbu => ?_, ?_, fun b hb => ?_, fun _ => ?_, ?_, fun r g hr => ?_, ?_⟩
    · exact (hadd.faces b hb).trans (hv.keeps.faces b (Nat.zero_le b) hbu)
    · rw [show w.board.manager? c = v.board.manager? c from congrArg (·.1) hadd.face,
        show v.board.manager? c = _ from congrArg (·.1) hfv, hu.manager]
    · rw [hadd.owners b fun he => Nat.ne_of_lt hb (he.trans hv.isNew), hv.owners b hb]
    · rw [Store.Aligned, hadd.names, hadd.size, hv.aligned]
    · exact Nat.le_trans hv.keeps.size (Nat.le_of_eq hadd.size.symm)
    · exact hadd.registrations ▸ hv.keeps.registrations r g hr
    · exact hadd.hooks.trans hv.keeps.hooks
  have hbefore : ∀ b e, c < e ∧ child b u e → child b w e ∧ w.filedBelow n e = u.filedBelow n e :=
    fun b e he => hchild b u w e hu.aligned (hgrow.keepsFrom he.1) he.2
  have hnow : child a w d ∧ w.filedBelow n d = v.filedBelow n d :=
    hchild a v w d hv.aligned (hadd.keepsFrom hcd) hv.built
  have hfw : w.face c = (some (Store.newManager name), kind, filed key (plans ++ [a]) (ds ++ [d])) := by
    have hm : v.board.manager? c = some (Store.newManager name) := congrArg (·.1) hfv
    have hk : (v.component c).kind = kind := congrArg (·.2.1) hfv
    rw [hadd.face, hm, hk, hch, filed_append hds]
  have hdw : List.Forall₂ (fun b e => c < e ∧ child b w e) (plans ++ [a]) (ds ++ [d]) :=
    List.rel_append (hds.imp fun b e he => ⟨he.1, (hbefore b e he).1⟩) (.cons ⟨hcd, hnow.1⟩ .nil)
  refine hu.grow hgrow ⟨ds ++ [d], hfw, hdw⟩ ?_
  have hold : ds.flatMap (w.filedBelow n) = u.filedBelow (n + 1) c := by
    rw [Parent.filedBelow hf hds]
    refine List.flatMap_congr fun e he => ?_
    obtain ⟨b, -, hb⟩ := exists_left_of_mem hds he
    exact (hbefore b e hb).2
  rw [Parent.filedBelow hfw hdw, List.flatMap_append, List.flatMap_singleton, hold, hnow.2, hadd.registrations]
  exact hu.issued.append hv.issued

theorem makes_buildParent {make : Store → α → Store × ComponentId} (hchild : ∀ a, Stable n (child a))
    (hmake : ∀ a ∈ plans, ∀ s, s.Aligned → Makes n (key a) (child a) s (make s a))
    (hn : (plans.map key).Nodup) (ha : s.Aligned) :
    Makes (n + 1) name (Parent name kind key child plans) s (buildParent name kind make plans s) := by
  refine foldl_prefix (I := fun done u => Makes (n + 1) name (Parent name kind key child done) s
    (u, s.components.size)) ?_ fun before a after u has hu => ?_
  · have h := makes_addComponent (n := n + 1) ha name kind fun t c hf => by
      rw [Store.filedBelow, Store.childIds_of_face hf]
      rfl
    exact ⟨h.aligned, h.keeps, h.isNew, h.manager, h.owner, h.owners, ⟨[], h.built, .nil⟩, h.issued⟩
  · refine hu.adopt hchild (hmake a (by simp [has]) u hu.aligned) fun hm => ?_
    rw [has, List.map_append, List.nodup_append] at hn
    exact hn.2.2 _ hm _ List.mem_cons_self rfl

/-! ## Contexts -/

variable {settings : Settings} {p : ContextPlan} {g : Registration}

/-- Registering adds a registration, attached to the context, and an entry on its desk. -/
theorem growsAt_enrol (u : Store) (c : ComponentId) (g : Registration) :
    u.GrowsAt c ((u.addRegistration g).1.insertRegistration c u.registrations.size).1 := by
  refine Store.GrowsAt.trans ?_ (Store.growsAt_updateDesk _ c _)
  refine ⟨fun _ _ _ => rfl, rfl, fun _ _ => rfl, id, Nat.le_refl _, fun r h hr => ?_, rfl⟩
  have hlt := Roster.lt_size_of_get? hr
  show (Roster.update (u.registrations.add g) _ _).get? r = some h
  rw [Roster.get?_update, if_neg (Nat.ne_of_gt hlt), Roster.get?_add, if_neg (Nat.ne_of_lt hlt), hr]

theorem get?_enrol (u : Store) (c : ComponentId) (g : Registration) :
    ((u.addRegistration g).1.insertRegistration c u.registrations.size).1.registrations.get?
      u.registrations.size = some (g.attach (u.name c)) := by
  show (Roster.update (u.registrations.add g) _ _).get? _ = _
  rw [Roster.get?_update, if_pos rfl, Roster.get?_add, if_pos rfl]
  rfl

/-- A handler under a new name replaces none. -/
theorem insert_new {desk : Desk} {name : String} (h : name ∉ Directory.names desk.handlers)
    (r : RegistrationId) :
    desk.insert name r = { desk with handlers := desk.handlers ++ [(name, r)] } := by
  rw [Desk.insert, Directory.put_eq_append h, Directory.find?_eq_none h, Option.toList_none,
    List.append_nil]

theorem Makes.enrol (hu : Makes 0 p.name (p.BuiltAt settings) s (u, c))
    (hnew : g.name ∉ p.registrations.map (·.name)) :
    Makes 0 p.name (({ p with registrations := p.registrations ++ [g] } : ContextPlan).BuiltAt settings)
      s (((u.addRegistration g).1.insertRegistration c u.registrations.size).1, c) := by
  obtain ⟨rs, hf, hrs⟩ := hu.built
  have hgrow := growsAt_enrol u c g
  have hname : u.name c = p.name := by
    rw [Store.name, Lifecycle.Board.name, hu.manager]
    rfl
  have hnow := get?_enrol u c g
  rw [hname] at hnow
  have hrw := List.rel_append (hrs.imp fun _ _ hr => hgrow.registrations _ _ hr) (.cons hnow .nil)
  have hsize : ((u.addRegistration g).1.insertRegistration c u.registrations.size).1.registrations.size =
      u.registrations.size + 1 := (Roster.size_update ..).trans (Roster.size_add ..)
  have hfw : ((u.addRegistration g).1.insertRegistration c u.registrations.size).1.face c =
      (some (Store.newManager p.name), .context {
        request := p.request, response := p.response, settings
        handlers := filed (·.name) (p.registrations ++ [g]) (rs ++ [u.registrations.size])
        defaultHandler := p.defaultHandler }, []) := by
    rw [Store.insertRegistration, Store.addRegistration]
    dsimp only
    rw [Store.registration_add, if_pos rfl]
    refine (Store.face_updateDesk hf hu.lt _).trans ?_
    rw [insert_new (by rwa [names_filed hrs]), filed_append hrs]
  refine hu.grow hgrow ⟨rs ++ [u.registrations.size], hfw, hrw⟩ ?_
  have hold : u.filedBelow 0 c = rs := by
    rw [Store.filedBelow_of_desk (Store.desk?_of_face hf), values_filed hrs]
  rw [Store.filedBelow_of_desk (Store.desk?_of_face hfw), values_filed hrw, hsize, ← hold]
  exact hu.issued.append (issued_singleton _)

theorem Makes.setDefault {key : String} (hu : Makes 0 p.name (p.BuiltAt settings) s (u, c))
    (hn : (p.registrations.map (·.name)).Nodup) (hkey : key ∈ p.registrations.map (·.name)) :
    Makes 0 p.name (({ p with defaultHandler := some key } : ContextPlan).BuiltAt settings) s
      ((u.setDefault c key).1, c) := by
  obtain ⟨rs, hf, hrs⟩ := hu.built
  obtain ⟨g, hg, rfl⟩ := List.mem_map.1 hkey
  obtain ⟨r, hr, -⟩ := find?_filed hrs hn hg
  have hrequire : u.requireHandler c g.name = .ok r := by
    rw [Store.requireHandler, Store.handler?, Store.desk?_of_face hf, Option.bind_some, hr]
  rw [Store.setDefault, hrequire]
  have hfw := Store.face_updateDesk hf hu.lt fun d => { d with defaultHandler := some g.name }
  refine hu.grow (Store.growsAt_updateDesk u c _) ⟨rs, hfw, hrs⟩ ?_
  have hi := hu.issued
  rw [Store.filedBelow_of_desk (Store.desk?_of_face hf)] at hi
  rw [Store.filedBelow_of_desk (Store.desk?_of_face hfw)]
  exact hi

variable {cat : Catalog} {s₀ : Store}

theorem makes_buildContext {t : Context} (hp : t.PlannedAs cat s₀ p) (ha : s.Aligned) :
    Makes 0 p.name (p.BuiltAt settings) s (buildContext settings s p) := by
  obtain ⟨name, request, response, registrations, default⟩ := p
  have hn := hp.distinct
  rw [← hp.names] at hn
  have hall : Makes 0 name (ContextPlan.BuiltAt settings ⟨name, request, response, registrations, none⟩) s
      (registrations.foldl (fun u g =>
        ((u.addRegistration g).1.insertRegistration s.components.size (u.addRegistration g).2).1)
        (s.addComponent name (.context { request, response, settings })).1, s.components.size) := by
    refine foldl_prefix (I := fun done u => Makes 0 name
      (ContextPlan.BuiltAt settings ⟨name, request, response, done, none⟩) s (u, s.components.size)) ?_
      fun before g after u hgs hu => ?_
    · have h := makes_addComponent (n := 0) ha name (.context { request, response, settings }) fun t c hf =>
        Store.filedBelow_of_desk (Store.desk?_of_face hf)
      exact ⟨h.aligned, h.keeps, h.isNew, h.manager, h.owner, h.owners, ⟨[], h.built, .nil⟩, h.issued⟩
    · refine Makes.enrol (p := ⟨name, request, response, before, none⟩) hu fun hm => ?_
      have hgs : registrations = before ++ g :: after := hgs
      rw [hgs, List.map_append, List.nodup_append] at hn
      exact hn.2.2 _ hm _ List.mem_cons_self rfl
  unfold buildContext
  dsimp only
  cases default with
  | none => exact hall
  | some key =>
    refine Makes.setDefault (p := ⟨name, request, response, registrations, none⟩) hall hn ?_
    exact hp.names ▸ hp.registered key hp.defaultHandler.symm

/-! ## The levels above -/

theorem makes_buildService {t : Service} {p : ServicePlan} (hp : t.PlannedAs cat s₀ p)
    (ha : s.Aligned) : Makes 1 p.name (p.BuiltAt settings) s (buildService settings s p) := by
  refine makes_buildParent (ContextPlan.stable settings) (fun q hq s hs => ?_) ?_ ha
  · obtain ⟨_, -, hc⟩ := exists_left_of_mem hp.contexts hq
    exact makes_buildContext hc hs
  · exact hp.names ▸ hp.distinct

theorem makes_buildServer {t : Server} {p : ServerPlan} (hp : t.PlannedAs cat s₀ p)
    (ha : s.Aligned) : Makes 2 p.name (p.BuiltAt settings) s (buildServer settings s p) := by
  refine makes_buildParent (fun _ => Parent.stable (ContextPlan.stable settings)) (fun q hq s hs => ?_)
    ?_ ha
  · obtain ⟨_, -, hv⟩ := exists_left_of_mem hp.services hq
    exact makes_buildService hv hs
  · exact hp.names ▸ hp.distinct

theorem makes_buildDomain {t : Domain} {p : DomainPlan} (hp : t.PlannedAs cat s₀ p)
    (ha : s.Aligned) : Makes 3 p.name p.BuiltAt s (buildDomain s p) := by
  refine makes_buildParent (fun _ => Parent.stable fun _ => Parent.stable (ContextPlan.stable _))
    (fun q hq s hs => ?_) ?_ ha
  · obtain ⟨_, -, hv⟩ := exists_left_of_mem hp.servers hq
    exact makes_buildServer hv hs
  · exact hp.names ▸ hp.distinct

/-- What is built of a topology is what its plan says. -/
theorem build_ok {t : Domain} {s₁ : Store} {d : ComponentId} (ha : s.Aligned)
    (h : build cat s t = (s₁, .ok d)) : ∃ p, t.PlannedAs cat s p ∧ Makes 3 p.name p.BuiltAt s (s₁, d) := by
  unfold build at h
  split at h
  next => cases h
  next p hp =>
    have hp := planDomain_eq_ok_iff.1 hp
    have hmade := makes_buildDomain hp ha
    dsimp only at h
    cases h
    exact ⟨p, hp, hmade⟩

/-! ## Ways through a built tree -/

end

end Topology
end Switchboard
