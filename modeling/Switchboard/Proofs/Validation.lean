import Switchboard.Proofs.Outcomes
import Switchboard.Rpc.Validation

/-!
# Interfaces that can be bound

What the rules of validation come to, all together: `Interface.IsSound` is what
an interface that passes satisfies, and nothing else is asked of it. Descriptors
are related to what they describe item by item, in order; a sound interface can
always be described, and its descriptor has its exported methods and no others.
-/

namespace Switchboard.Rpc

variable {declaring : String}

/-! ## Parameters -/

namespace Parameter

/-- The parameter has a name that is more than blanks, and can be left out only if it can be null. -/
structure IsCallable (p : Parameter) : Prop where
  named : ∃ name, p.name = some name ∧ ¬ Text.IsBlank name
  nullable : p.required = true ∨ p.type.isPrimitive = false

/-- The descriptor says of the parameter what callers may know. -/
structure DescribedBy (p : Parameter) (d : ParameterDescriptor) : Prop where
  name : p.trimmedName? = some d.name
  type : d.type = p.type
  required : d.required = p.required
  isPublic : d.isPublic = p.isPublic

variable {p : Parameter}

theorem exists_trimmedName?_iff :
    (∃ name, p.trimmedName? = some name) ↔ ∃ name, p.name = some name ∧ ¬ Text.IsBlank name := by
  unfold trimmedName?
  cases p.name with
  | none => simp
  | some name => simp [Option.filter_eq_some_iff, Text.IsBlank]

end Parameter

theorem validateParams_eq_ok_iff {method : String} {n : Nat} {ps : List Parameter} :
    validateParams declaring method n ps = .ok () ↔ ∀ p ∈ ps, p.IsCallable := by
  induction ps generalizing n with
  | nil => simp [validateParams]
  | cons p ps ih =>
    rw [validateParams, List.forall_mem_cons]
    have hname := p.exists_trimmedName?_iff
    cases ht : p.trimmedName? with
    | none =>
      refine iff_of_false (fun h => nomatch h) fun h => ?_
      obtain ⟨name, hn⟩ := hname.2 h.1.named
      rw [ht] at hn
      cases hn
    | some name =>
      dsimp only
      split
      · rename_i hp
        simp only [Bool.and_eq_true, Bool.not_eq_true'] at hp
        refine iff_of_false (fun h => nomatch h) fun h => ?_
        rcases h.1.nullable with hr | ht
        · rw [hp.1] at hr
          cases hr
        · rw [hp.2] at ht
          cases ht
      · rename_i hp
        simp only [Bool.and_eq_true, Bool.not_eq_true', not_and_or, Bool.not_eq_false,
          Bool.not_eq_true] at hp
        rw [ih]
        exact (and_iff_right ⟨hname.1 ⟨name, ht⟩, hp⟩).symm

theorem describeParams_eq_ok_iff {method : String} {n : Nat} {ps : List Parameter}
    {ds : List ParameterDescriptor} :
    describeParams declaring method n ps = .ok ds ↔ List.Forall₂ Parameter.DescribedBy ps ds := by
  induction ps generalizing n ds with
  | nil => simp [describeParams, eq_comm]
  | cons p ps ih =>
    rw [describeParams]
    cases ht : p.trimmedName? with
    | none =>
      refine iff_of_false (fun h => nomatch h) fun h => ?_
      cases h with
      | cons hd _ =>
        rw [hd.name] at ht
        cases ht
    | some name =>
      constructor
      · intro h
        obtain ⟨ds', hds, rfl⟩ := map_eq_ok_iff.1 h
        exact .cons ⟨ht, rfl, rfl, rfl⟩ (ih.1 hds)
      · intro h
        cases h with
        | @cons _ d _ ds' hd hds =>
          obtain ⟨dname, dtype, drequired, dpublic⟩ := d
          obtain ⟨hn, rfl, rfl, rfl⟩ := hd
          rw [ht] at hn
          cases hn
          exact map_eq_ok_iff.2 ⟨ds', ih.2 hds, rfl⟩

/-- Where all parameters are named, they can be described. -/
theorem exists_describeParams {method : String} {n : Nat} {ps : List Parameter}
    (h : ∀ p ∈ ps, p.IsCallable) : ∃ ds, describeParams declaring method n ps = .ok ds := by
  induction ps generalizing n with
  | nil => exact ⟨[], rfl⟩
  | cons p ps ih =>
    obtain ⟨hp, hps⟩ := List.forall_mem_cons.1 h
    obtain ⟨name, hname⟩ := p.exists_trimmedName?_iff.2 hp.named
    obtain ⟨ds, hds⟩ := ih (n := n + 1) hps
    rw [describeParams, hname]
    exact ⟨_, map_eq_ok_iff.2 ⟨ds, hds, rfl⟩⟩

/-! ## Methods -/

namespace Method

/-- The method can be called from outside on an instance, and returns something. -/
structure IsCallable (m : Method) : Prop where
  isPublic : m.isPublic = true
  onInstance : m.isStatic = false
  returns : m.returns.isUnit = false
  params : ∀ p ∈ m.params, p.IsCallable

/-- The descriptor says of the method of an interface what callers may know. -/
structure DescribedBy (declaring : String) (m : Method) (d : MethodDescriptor) : Prop where
  name : d.name = m.name
  params : List.Forall₂ Parameter.DescribedBy m.params d.params
  returns : d.returns = m.returns
  description : d.description = m.description
  prototype : d.prototype = m.prototype declaring

variable {m : Method} {d : MethodDescriptor}

theorem DescribedBy.types (h : m.DescribedBy declaring d) :
    d.params.map (·.type) = m.params.map (·.type) :=
  (map_eq_map_of_forall₂ h.params fun _ _ hp => hp.type.symm).symm

theorem of_eq_ok_iff : MethodDescriptor.of declaring m = .ok d ↔ m.DescribedBy declaring d := by
  unfold MethodDescriptor.of
  rw [map_eq_ok_iff]
  constructor
  · rintro ⟨params, hp, rfl⟩
    exact ⟨rfl, describeParams_eq_ok_iff.1 hp, rfl, rfl, rfl⟩
  · intro h
    obtain ⟨name, params, returns, description, prototype⟩ := d
    obtain ⟨rfl, hp, rfl, rfl, rfl⟩ := h
    exact ⟨params, describeParams_eq_ok_iff.2 hp, rfl⟩

theorem IsCallable.exists_describedBy (h : m.IsCallable) (declaring : String) :
    ∃ d, m.DescribedBy declaring d := by
  obtain ⟨ds, hds⟩ : ∃ ds, describeParams declaring m.name 0 m.params = .ok ds :=
    exists_describeParams h.params
  exact ⟨_, of_eq_ok_iff.1 (map_eq_ok_iff.2 ⟨ds, hds, rfl⟩)⟩

end Method

theorem validateMethod_eq_ok_iff {m : Method} :
    validateMethod declaring m = .ok () ↔ m.exported = true ∧ m.IsCallable := by
  unfold validateMethod
  constructor
  · intro h
    split at h
    · cases h
    split at h
    · cases h
    split at h
    · cases h
    split at h
    · cases h
    rename_i hp hs he hr
    exact ⟨by simpa using he, by simpa using hp, by simpa using hs, by simpa using hr,
      validateParams_eq_ok_iff.1 h⟩
  · rintro ⟨he, hp, hs, hr, hps⟩
    simp only [he, hp, hs, hr, Bool.not_true, Bool.false_eq_true, ↓reduceIte]
    exact validateParams_eq_ok_iff.2 hps

theorem validateMethods_eq_ok_iff {seen : List String} {ms : List Method} :
    validateMethods declaring seen ms = .ok () ↔
      (∀ m ∈ ms, m.exported = true ∧ m.IsCallable) ∧ (ms.map (·.prototype declaring)).Nodup ∧
        ∀ m ∈ ms, m.prototype declaring ∉ seen := by
  induction ms generalizing seen with
  | nil => simp [validateMethods]
  | cons m ms ih =>
    simp only [validateMethods, bind_eq_ok_iff, List.forall_mem_cons, List.map_cons, List.nodup_cons]
    constructor
    · rintro ⟨⟨⟩, hm, h⟩
      split at h
      · cases h
      rename_i hseen
      obtain ⟨hms, hnodup, hnew⟩ := ih.1 h
      refine ⟨⟨validateMethod_eq_ok_iff.1 hm, hms⟩, ⟨fun hmem => ?_, hnodup⟩, hseen, fun m' hm' => ?_⟩
      · obtain ⟨m', hm', heq⟩ := List.mem_map.1 hmem
        exact hnew m' hm' (heq ▸ List.mem_cons_self)
      · exact fun hs => hnew m' hm' (List.mem_cons_of_mem _ hs)
    · rintro ⟨⟨hm, hms⟩, ⟨hnot, hnodup⟩, hseen, hnew⟩
      refine ⟨(), validateMethod_eq_ok_iff.2 hm, ?_⟩
      rw [if_neg hseen]
      refine ih.2 ⟨hms, hnodup, fun m' hm' => ?_⟩
      rw [List.mem_cons, not_or]
      exact ⟨fun heq => hnot (heq ▸ List.mem_map_of_mem hm'), hnew m' hm'⟩

theorem describeMethods_ok {seen : List String} {ms : List Method} {ds : List MethodDescriptor}
    (h : describeMethods declaring seen ms = .ok ds) :
    List.Forall₂ (Method.DescribedBy declaring) ms ds := by
  induction ms generalizing seen ds with
  | nil =>
    cases h
    exact .nil
  | cons m ms ih =>
    simp only [describeMethods, bind_eq_ok_iff] at h
    obtain ⟨d, hd, h⟩ := h
    split at h
    · cases h
    obtain ⟨ds', hds, h⟩ := bind_eq_ok_iff.1 h
    cases h
    exact .cons (Method.of_eq_ok_iff.1 hd) (ih hds)

theorem exists_describeMethods {seen : List String} {ms : List Method}
    (hms : ∀ m ∈ ms, m.IsCallable) (hnodup : (ms.map (·.prototype declaring)).Nodup)
    (hnew : ∀ m ∈ ms, m.prototype declaring ∉ seen) :
    ∃ ds, describeMethods declaring seen ms = .ok ds := by
  induction ms generalizing seen with
  | nil => exact ⟨[], rfl⟩
  | cons m ms ih =>
    rw [List.map_cons, List.nodup_cons] at hnodup
    rw [List.forall_mem_cons] at hms hnew
    obtain ⟨d, hd⟩ := hms.1.exists_describedBy declaring
    have hrest : ∀ m' ∈ ms, m'.prototype declaring ∉ d.prototype :: seen := by
      intro m' hm'
      rw [List.mem_cons, not_or, hd.prototype]
      exact ⟨fun heq => hnodup.1 (heq ▸ List.mem_map_of_mem hm'), hnew.2 m' hm'⟩
    obtain ⟨ds, hds⟩ := ih hms.2 hnodup.2 hrest
    simp only [describeMethods, bind_eq_ok_iff]
    refine ⟨d :: ds, d, Method.of_eq_ok_iff.2 hd, ?_⟩
    rw [if_neg (hd.prototype ▸ hnew.1)]
    exact bind_eq_ok_iff.2 ⟨ds, hds, rfl⟩

/-! ## Interfaces -/

namespace Interface

def exported (i : Interface) : List Method := i.methods.filter (·.exported)

/-- A remote component, each exported method of which can be called, under a prototype of its own. -/
structure IsSound (i : Interface) : Prop where
  remote : i.remote = true
  component : i.component = true
  callable : ∀ m ∈ i.methods, m.exported = true → m.IsCallable
  distinct : (i.exported.map (·.prototype i.name)).Nodup

/-- The descriptor has the exported methods of the interface in order, and no others. -/
structure DescribedBy (i : Interface) (d : Descriptor) : Prop where
  name : d.name = i.name
  methods : List.Forall₂ (Method.DescribedBy i.name) i.exported d.methods

variable {i : Interface} {d : Descriptor}

theorem mem_exported {m : Method} : m ∈ i.exported ↔ m ∈ i.methods ∧ m.exported = true := List.mem_filter

theorem validate_eq_ok_iff : validateInterface i = .ok () ↔ i.IsSound := by
  have hms : validateMethods i.name [] i.exported = .ok () ↔ _ := validateMethods_eq_ok_iff
  unfold validateInterface
  constructor
  · intro h
    split at h
    · cases h
    split at h
    · cases h
    rename_i hr hc
    obtain ⟨hcall, hnodup, -⟩ := hms.1 h
    exact ⟨by simpa using hr, by simpa using hc, fun m hm he => (hcall m (mem_exported.2 ⟨hm, he⟩)).2,
      hnodup⟩
  · rintro ⟨hr, hc, hcall, hnodup⟩
    simp only [hr, hc, Bool.not_true, Bool.false_eq_true, ↓reduceIte]
    refine hms.2 ⟨fun m hm => ?_, hnodup, by simp⟩
    exact ⟨(mem_exported.1 hm).2, hcall m (mem_exported.1 hm).1 (mem_exported.1 hm).2⟩

/-- Callers see all exported methods, since these are public. -/
theorem IsSound.visible (h : i.IsSound) : i.visible = i.exported := by
  refine List.filter_congr fun m hm => ?_
  cases he : m.exported with
  | false => simp
  | true => simp [(h.callable m hm he).isPublic]

theorem IsSound.describedBy (h : i.IsSound) (hd : Descriptor.of i = .ok d) : i.DescribedBy d := by
  rw [Descriptor.of, if_pos h.remote, h.visible] at hd
  obtain ⟨ms, hms, rfl⟩ := map_eq_ok_iff.1 hd
  exact ⟨rfl, describeMethods_ok hms⟩

theorem IsSound.exists_descriptor (h : i.IsSound) : ∃ d, Descriptor.of i = .ok d := by
  have hcall : ∀ m ∈ i.exported, m.IsCallable := fun m hm =>
    h.callable m (mem_exported.1 hm).1 (mem_exported.1 hm).2
  obtain ⟨ds, hds⟩ : ∃ ds, describeMethods i.name [] i.exported = .ok ds :=
    exists_describeMethods hcall h.distinct (by simp)
  rw [Descriptor.of, if_pos h.remote, h.visible]
  exact ⟨_, map_eq_ok_iff.2 ⟨ds, hds, rfl⟩⟩

end Interface

/-! ## Implementations -/

/-- The implementation has a method for the one described, and it returns the same. -/
def Implementation.Serves {ι : Type} (impl : Implementation ι) (d : MethodDescriptor) : Prop :=
  ∃ found, impl.bestMatch? d.name (d.params.map (·.type)) = some found ∧ found.returns = d.returns

section

variable {ι : Type} {impl : Implementation ι}

theorem validateBinding_eq_ok_iff {d : MethodDescriptor} :
    validateBinding impl d = .ok () ↔ impl.Serves d := by
  unfold validateBinding Implementation.Serves
  cases impl.bestMatch? d.name (d.params.map (·.type)) with
  | none => simp
  | some found =>
    dsimp only
    split
    · rename_i h
      simp [h]
    · rename_i h
      simp [h]

theorem validateImplementation_eq_ok_iff {d : Descriptor} :
    validateImplementation d impl = .ok () ↔
      ¬ Text.IsBlank impl.name ∧ ∀ m ∈ d.methods, impl.Serves m := by
  have hforM : ∀ ms : List MethodDescriptor,
      ms.forM (validateBinding impl) = .ok () ↔ ∀ m ∈ ms, impl.Serves m := by
    intro ms
    induction ms with
    | nil => simp [pure, Except.pure]
    | cons m ms ih =>
      rw [List.forM, bind_eq_ok_iff, List.forall_mem_cons, ← validateBinding_eq_ok_iff, ← ih]
      exact ⟨fun ⟨⟨⟩, hm, hms⟩ => ⟨hm, hms⟩, fun h => ⟨(), h⟩⟩
  unfold validateImplementation
  split
  · rename_i hb
    simp [hb]
  · rename_i hb
    rw [hforM, and_iff_right hb]

end

end Switchboard.Rpc
