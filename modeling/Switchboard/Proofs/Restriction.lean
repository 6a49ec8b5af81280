import Switchboard.Proofs.Rebuffs

/-!
# Restricted handlers

A handler whose parameters restrict it is reached only past its hook. The guards
that decide on this are those of the topology, since the built tree has them and
neither phases nor dispatches change them, in whatever order servers and services
are gone through.
-/

namespace Switchboard.Container

open Activity

/-! ## Phases and dispatches on a built tree -/

/-- Servers, services and contexts stand in another order, and nothing else is different. -/
structure Store.Shuffled (s t : Store) : Prop where
  children : ∀ c, (t.component c).children.Perm (s.component c).children
  components : ∀ c, { t.component c with children := (s.component c).children } = s.component c
  rest : { t with components := s.components } = s

/-- The stores that phases and dispatches lead to, each run among others that come past no guard, with
branches that change places in between. -/
inductive Course (s₁ : Store) : Store → Prop
  | start : Course s₁ s₁
  | shuffle {s t : Store} : Course s₁ s → s.Shuffled t → Course s₁ t
  | phase {s t : Store} {own : List (Store × Store)} {out : Except Lifecycle.Fault Unit}
      (c : ComponentId) (p : Lifecycle.Phase) : Course s₁ s →
      Runs Store.Guarded (phase c p) s own out t → Course s₁ t
  | dispatch {s t : Store} {own : List (Store × Store)} {out : Handled} (c : ComponentId)
      (e : RequestEvent) : Course s₁ s → Runs Store.Guarded (dispatch c e) s own out t → Course s₁ t

theorem Store.Shuffled.guarded {s t : Store} (h : s.Shuffled t) : s.Guarded t where
  hooks := show ({ t with components := s.components } : Store).hooks = s.hooks from congrArg Store.hooks h.rest
  children c := (h.children c).map _
  guards r := by
    have hrest : t.registrations = s.registrations :=
      show ({ t with components := s.components } : Store).registrations = s.registrations from
        congrArg Store.registrations h.rest
    rw [hrest]
  desks c new hn := by
    refine ⟨new, ?_, rfl, fun _ hr => hr⟩
    rw [Store.desk?, ← h.components c]
    exact hn

theorem Course.guarded {s₁ s : Store} (h : Course s₁ s) : s₁.Guarded s := by
  induction h with
  | start => exact .refl s₁
  | shuffle _ hs ih => exact ih.trans _ _ _ hs.guarded
  | phase c p _ hr ih =>
    exact ih.trans _ _ _ ((guarded_phase c p).frame Store.Guarded.refl Store.Guarded.trans
      (fun _ _ h => h) _ _ _ _ hr)
  | dispatch c e _ hr ih =>
    exact ih.trans _ _ _ ((guarded_dispatch c e).frame Store.Guarded.refl Store.Guarded.trans
      (fun _ _ h => h) _ _ _ _ hr)

theorem Store.Guarded.filedBelow_subset {s t : Store} (h : s.Guarded t) (n : Nat) (c : ComponentId) :
    t.filedBelow n c ⊆ s.filedBelow n c := by
  induction n generalizing c with
  | zero =>
    intro r hr
    cases hd : t.desk? c with
    | none =>
      rw [Store.filedBelow, hd] at hr
      cases hr
    | some new =>
      rw [Store.filedBelow_of_desk hd] at hr
      obtain ⟨old, hold, -, hmem⟩ := h.desks c new hd
      rw [Store.filedBelow_of_desk hold]
      exact hmem r hr
  | succ n ih =>
    intro r hr
    obtain ⟨d, hd, hr⟩ := List.mem_flatMap.1 hr
    exact List.mem_flatMap.2 ⟨d, (h.children c).mem_iff.1 hd, ih d hr⟩

/-- Branches that change places have still nothing in common. -/
theorem Store.Apart.guarded {s t : Store} {d : ComponentId} (h : s.Apart d) (hg : s.Guarded t) : t.Apart d := by
  have hdisj : ∀ n a b, List.Disjoint (s.filedBelow n a) (s.filedBelow n b) →
      List.Disjoint (t.filedBelow n a) (t.filedBelow n b) := fun n a b hab _ ha hb =>
    hab (hg.filedBelow_subset n a ha) (hg.filedBelow_subset n b hb)
  refine ⟨?_, fun server hm => ?_⟩
  · exact ((hg.children d).pairwise_iff List.disjoint_symm).2 (h.servers.imp (hdisj 2 _ _))
  · have hin := (hg.children d).mem_iff.1 hm
    exact ((hg.children server).pairwise_iff List.disjoint_symm).2 ((h.services server hin).imp (hdisj 1 _ _))

end Switchboard.Container

namespace Switchboard.Topology

open Activity Container

/-- The contexts of a built tree keep to the settings of its domain, and to handlers that are
registered. -/
theorem DomainPlan.BuiltAt.desk {p : DomainPlan} {s₁ s : Store} {d c : ComponentId} {desk : Desk}
    (hb : p.BuiltAt s₁ d) (hg : s₁.Guarded s) (hc : s.IsContextOf d c) (hd : s.desk? c = some desk) :
    desk.settings = p.settings ∧ ∀ r ∈ Directory.values desk.handlers, r < s.registrations.size := by
  obtain ⟨service, ⟨server, hserver, hservice⟩, hcontext⟩ := hc
  rw [(hg.children _).mem_iff] at hserver hservice hcontext
  obtain ⟨svp, -, bsv⟩ := Parent.exists_plan hb hserver
  obtain ⟨vp, -, bv⟩ := Parent.exists_plan bsv hservice
  obtain ⟨q, -, rs, hf, hrs⟩ := Parent.exists_plan bv hcontext
  obtain ⟨old, hold, hset, hmem⟩ := hg.desks c desk hd
  rw [Store.desk?_of_face hf, Option.some.injEq] at hold
  subst hold
  refine ⟨hset, fun r hr => hg.lt_size_iff.2 ?_⟩
  have hr' := hmem r hr
  rw [values_filed hrs] at hr'
  obtain ⟨g, -, hget⟩ := exists_left_of_mem hrs hr'
  exact Roster.lt_size_of_get? hget

end Switchboard.Topology
