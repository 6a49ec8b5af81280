import Switchboard.Container.Cascade
import Switchboard.Proofs.Acts

/-!
# Where a phase of a context fails

A context fails in nothing but a start, and there only over a handler of a class
that could not be constructed or initialized: `Fails own` says that the run noted
such an outcome.
-/

namespace Switchboard.Container

open Activity

/-- A class could not be constructed, or an instance of it not initialized. -/
def Act.isFailure : Act → Bool
  | constructed _ (.error _) | initialized _ _ (.error _) => true
  | _ => false

/-- The writes of a run noted that an instance could not be made. -/
def Fails (own : List (Store × Store)) : Prop := ∃ a ∈ noted own, a.isFailure = true

/-- Nothing is returned but what was obtained, unless the run noted a failure. -/
abbrev Blames {ε α : Type} (own : List (Store × Store)) (out : Except ε α) : Prop :=
  ∀ f, out = .error f → Fails own

section

variable {own own' : List (Store × Store)} {s t : Store}

theorem Fails.mono (h : Fails own) (hs : own ⊆ own') : Fails own' := by
  obtain ⟨a, ha, hf⟩ := h
  obtain ⟨w, hw, haw⟩ := List.mem_flatMap.1 ha
  exact ⟨a, List.mem_flatMap.2 ⟨w, hs hw, haw⟩, hf⟩

theorem fails_singleton {a : Act} (rest : List Act) (h : t.acts = a :: rest ++ s.acts)
    (hf : a.isFailure = true) : Fails [(s, t)] := by
  refine ⟨a, ?_, hf⟩
  rw [noted_cons, notedBy_eq h]
  exact List.mem_append_left _ List.mem_cons_self

end

theorem blames_ok {ε α : Type} (own : List (Store × Store)) (a : α) : Blames own (.ok a : Except ε α) := by
  rintro f ⟨⟩

section

variable {rely : Store → Store → Prop}

theorem instantiate_blames (s : Store) (r : RegistrationId) :
    Blames [(s, (s.instantiate r).1)] (s.instantiate r).2 := by
  unfold Store.instantiate
  dsimp only
  split
  · intro f _
    exact fails_singleton (a := .constructed _ (.error _)) [.constructing _ _] rfl rfl
  · exact blames_ok _ _

theorem setUp_blames (r : RegistrationId) (i : InstanceId) (s : Store) :
    Ensures rely (setUp r i) (fun own out _ => Blames own out) s := by
  simp only [setUp, runInit, ensures_bind, ensures_act, ensures_yield]
  intro u _ f hf
  refine Fails.mono ?_ (List.subset_append_right _ _)
  rw [hf]
  exact fails_singleton (a := .initialized _ i (.error f)) [] rfl rfl

theorem place_returns (r : RegistrationId) (i : InstanceId) (outcome : Except String Unit) (s : Store) :
    Ensures rely (place r i outcome)
      (fun _ out _ => ∀ f, out = .error f → ∃ cause, outcome = .error cause) s := by
  cases outcome with
  | error cause => exact .of_forall fun _ _ _ _ _ => ⟨cause, rfl⟩
  | ok =>
    simp only [place, ensures_bind, ensures_modify, ensures_pure]
    rintro f ⟨⟩

theorem buildShared_blames (r : RegistrationId) (s : Store) :
    Ensures rely (buildShared r) (fun own out _ => Blames own out) s := by
  simp only [buildShared, ensures_bind, ensures_act]
  cases hb : (s.instantiate r).2 with
  | error f =>
    simp only [ensures_bind, ensures_modify, ensures_pure]
    exact fun _ _ => (instantiate_blames s r f hb).mono (List.subset_append_left _ _)
  | ok i =>
    simp only [ensures_bind]
    refine (setUp_blames r i _).mono fun own outcome u hu => ?_
    refine (place_returns r i outcome u).mono fun own' out t ht f hf => ?_
    obtain ⟨cause, hc⟩ := ht f hf
    exact (hu cause hc).mono fun w hw =>
      List.mem_append_right _ (List.mem_append_left _ hw)

theorem shareOrBuild_blames (r : RegistrationId) (s : Store) :
    Ensures rely (shareOrBuild r) (fun own out _ => Blames own out) s := by
  simp only [shareOrBuild, ensures_bind, ensures_waitUntil, ensures_act]
  intro u _ _
  cases (u.share r).2 with
  | some i => exact ensures_pure.2 (blames_ok _ _)
  | none =>
    simp only [ensures_bind, ensures_modify]
    exact (buildShared_blames r _).mono fun own out t ht f hf =>
      (ht f hf).mono fun w hw => by simp [hw]

theorem obtainShared_blames (r : RegistrationId) (s : Store) :
    Ensures rely (obtainShared r) (fun own out _ => Blames own out) s := by
  simp only [obtainShared, ensures_bind, ensures_waitUntil, ensures_act]
  intro u _ _
  cases (u.share r).2 with
  | some i => exact ensures_pure.2 (blames_ok _ _)
  | none =>
    exact (shareOrBuild_blames r _).mono fun own out t ht f hf =>
      (ht f hf).mono fun w hw => by simp [hw]

theorem createHandler_blames (r : RegistrationId) (s : Store) :
    Ensures rely (createHandler r) (fun own out _ => Blames own out) s := by
  simp only [createHandler, ensures_bind, ensures_act]
  have hgot : ∀ u, Ensures rely (if (s.registration r).instancing.sharesInstance then obtainShared r
      else .act (·.instantiate r)) (fun own out _ => Blames own out) u := by
    intro u
    split
    · exact obtainShared_blames r u
    · exact ensures_act.2 (instantiate_blames u r)
  refine (hgot _).mono fun own out t ht => ?_
  cases out with
  | ok i => exact ensures_pure.2 (blames_ok _ _)
  | error f =>
    simp only [deliver, ensures_bind, ensures_modify, ensures_pure]
    exact fun _ _ => (ht f rfl).mono fun w hw => by simp [hw]

theorem preload_blames (r : RegistrationId) (s : Store) :
    Ensures rely (preload r) (fun own out _ => Blames own out) s := by
  simp only [preload, ensures_bind, ensures_get]
  split
  · refine ensures_bind.2 ((createHandler_blames r s).mono fun own out t ht => ?_)
    cases out with
    | error f => exact ensures_pure.2 fun _ _ => (ht f rfl).mono fun w hw => by simp [hw]
    | ok i =>
      simp only [ensures_bind, ensures_modify, ensures_pure]
      exact blames_ok _ _
  · exact ensures_pure.2 (blames_ok _ _)

theorem preloadAll_blames (rs : List RegistrationId) (s : Store) :
    Ensures rely (preloadAll rs) (fun own out _ => Blames own out) s := by
  induction rs generalizing s with
  | nil => exact ensures_pure.2 (blames_ok _ _)
  | cons r rs ih =>
    simp only [preloadAll, ensures_bind, ensures_get]
    have ih' : ∀ own u, Ensures rely (preloadAll rs) (fun own' out _ => Blames (own ++ own') out) u :=
      fun own u => (ih u).mono fun own' out t ht f hf =>
        (ht f hf).mono (List.subset_append_right _ _)
    split
    · refine ensures_bind.2 ((preload_blames r s).mono fun own out t ht => ?_)
      cases out with
      | error f => exact ensures_pure.2 fun _ _ => (ht f rfl).mono fun w hw => by simp [hw]
      | ok => exact ih' own t
    · exact ih' [] s

/-- A context fails in a start only, over an instance that could not be made. -/
theorem contextHook_blames (c : ComponentId) (p : Lifecycle.Phase) (s : Store) :
    Ensures rely (contextHook c p) (fun own out _ => ∀ f, out = .error f → p = .start ∧ Fails own) s := by
  cases p with
  | init => exact ensures_pure.2 fun f h => by cases h
  | start =>
    simp only [contextHook, ensures_bind, ensures_get]
    exact (preloadAll_blames _ s).mono fun own out t ht f hf => ⟨trivial, ht f hf⟩
  | stop =>
    simp only [contextHook, ensures_bind, ensures_act, ensures_get, ensures_pure]
    exact .of_forall fun _ _ _ => .of_forall fun _ _ _ f h => by cases h
  | destroy =>
    simp only [contextHook, ensures_bind, ensures_act, ensures_modify, ensures_pure]
    exact .of_forall fun _ _ _ => .of_forall fun _ _ _ f h => by cases h

end

end Switchboard.Container
