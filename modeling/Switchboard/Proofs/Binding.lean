import Mathlib.Data.List.Nodup
import Switchboard.Proofs.Validation
import Switchboard.Rpc.Endpoint

/-!
# Binding

Which interfaces and implementations an endpoint can be built of, and what it is
bound to. `Implementation.Bindable` lists the conditions; `Endpoint.IsBoundTo`
is what an endpoint that was built satisfies: its bindings are those of the
exported methods that the filter accepts, each with the method that matches it
best. Prototypes are distinct, so a lookup finds the one binding there is.
-/

namespace Switchboard.Rpc

variable {ι : Type} {i : Interface} {impl : Implementation ι} {filter : MethodDescriptor → Bool}
  {data : Params}

namespace Implementation

/-- The factory and the injection succeed the first time they run. -/
def CanBuild (impl : Implementation ι) (data : Params) : Prop :=
  ∃ value, impl.build 0 data = .ok value ∧
    ∀ inject, impl.inject = some inject → ∃ injected, inject 0 value data = .ok injected

/-- The implementation can be bound to the interface. -/
structure Bindable (impl : Implementation ι) (i : Interface) (data : Params) : Prop where
  sound : i.IsSound
  named : ¬ Text.IsBlank impl.name
  served : ∀ m ∈ i.methods, m.exported = true → ∃ found,
    impl.bestMatch? m.name (m.params.map (·.type)) = some found ∧ found.returns = m.returns
  built : impl.instancing = .stateless → impl.CanBuild data

theorem serves_iff {m : Method} {d : MethodDescriptor} {declaring : String}
    (h : m.DescribedBy declaring d) :
    impl.Serves d ↔ ∃ found, impl.bestMatch? m.name (m.params.map (·.type)) = some found ∧
      found.returns = m.returns := by
  rw [Serves, h.name, h.types, h.returns]

end Implementation

namespace Endpoint

/-- What an endpoint that was built is bound to. -/
structure IsBoundTo (i : Interface) (impl : Implementation ι) (filter : MethodDescriptor → Bool)
    (e : Endpoint ι) : Prop where
  sound : i.IsSound
  descriptor : i.DescribedBy e.descriptor
  named : ¬ Text.IsBlank impl.name
  served : ∀ m ∈ e.descriptor.methods, impl.Serves m
  bindings : e.bindings = bind e.descriptor impl filter

variable {e : Endpoint ι} {b : Binding ι} {d : Descriptor}

/-! ## Building -/

theorem instantiate_ok_iff :
    (∃ made, (instantiate impl data .empty).2 = .ok made) ↔ impl.CanBuild data := by
  unfold instantiate Implementation.CanBuild
  dsimp only [Ledger.empty]
  cases impl.build 0 data with
  | error cause => simp
  | ok value =>
    cases impl.inject with
    | none => simp
    | some inject =>
      simp only [Except.ok.injEq, Option.some.injEq, exists_eq_left', forall_eq']
      cases inject 0 value data <;> simp

/-- What has to go well before instances are thought of. -/
theorem checks_eq_ok_iff :
    (do
      validateInterface i
      let d ← Descriptor.of i
      validateImplementation d impl
      return d : Except Fault Descriptor) = .ok d ↔
      i.IsSound ∧ Descriptor.of i = .ok d ∧ ¬ Text.IsBlank impl.name ∧ ∀ m ∈ d.methods, impl.Serves m := by
  simp only [bind_eq_ok_iff]
  constructor
  · rintro ⟨⟨⟩, hi, d', hd, ⟨⟩, himpl, hret⟩
    cases hret
    exact ⟨Interface.validate_eq_ok_iff.1 hi, hd, validateImplementation_eq_ok_iff.1 himpl⟩
  · rintro ⟨hi, hd, himpl⟩
    exact ⟨(), Interface.validate_eq_ok_iff.2 hi, d, hd, (), validateImplementation_eq_ok_iff.2 himpl, rfl⟩

theorem isBoundTo_of_build (h : (build i impl filter data).2 = .ok e) : e.IsBoundTo i impl filter := by
  unfold build at h
  split at h
  · cases h
  · rename_i d hd
    obtain ⟨hi, hd, hnamed, hserved⟩ := checks_eq_ok_iff.1 hd
    have hbound : ∀ shared, (⟨d, impl, bind d impl filter, shared, data⟩ : Endpoint ι).IsBoundTo i impl
        filter := fun _ => ⟨hi, hi.describedBy hd, hnamed, hserved, rfl⟩
    dsimp only at h
    split at h
    · split at h
      · cases h
      · cases h
        exact hbound _
    · cases h
      exact hbound _

theorem build_ok_iff :
    (∃ e, (build i impl filter data).2 = .ok e) ↔ impl.Bindable i data := by
  constructor
  · rintro ⟨e, h⟩
    obtain ⟨hi, hd, hnamed, hserved, -⟩ := isBoundTo_of_build h
    refine ⟨hi, hnamed, fun m hm he => ?_, fun hst => ?_⟩
    · obtain ⟨d, hdm, hdesc⟩ := exists_right_of_mem hd.methods (Interface.mem_exported.2 ⟨hm, he⟩)
      exact (Implementation.serves_iff hdesc).1 (hserved d hdm)
    · unfold build at h
      split at h
      · cases h
      · dsimp only at h
        rw [if_pos (by simp [Instancing.sharesInstance, hst])] at h
        split at h
        · cases h
        · rename_i hmade
          exact instantiate_ok_iff.1 ⟨_, by rw [hmade]⟩
  · rintro ⟨hi, hnamed, hserved, hbuilt⟩
    obtain ⟨d, hd⟩ := hi.exists_descriptor
    have hserves : ∀ m ∈ d.methods, impl.Serves m := by
      intro m hm
      obtain ⟨m', hm', hdesc⟩ := exists_left_of_mem (hi.describedBy hd).methods hm
      obtain ⟨hmem, he⟩ := Interface.mem_exported.1 hm'
      exact (Implementation.serves_iff hdesc).2 (hserved m' hmem he)
    unfold build
    rw [checks_eq_ok_iff.2 ⟨hi, hd, hnamed, hserves⟩]
    dsimp only
    split
    · rename_i hst
      obtain ⟨made, hmade⟩ := instantiate_ok_iff.2 (hbuilt (by simpa [Instancing.sharesInstance] using hst))
      split
      · rename_i hno
        rw [hno] at hmade
        cases hmade
      · exact ⟨_, rfl⟩
    · exact ⟨_, rfl⟩

/-! ## Bindings -/

theorem mem_bind : b ∈ bind d impl filter ↔ b.method ∈ d.methods ∧ filter b.method = true ∧
    impl.bestMatch? b.method.name (b.method.params.map (·.type)) = some b.serving := by
  unfold bind
  rw [List.mem_filterMap]
  constructor
  · rintro ⟨m, hm, hb⟩
    obtain ⟨serving, hs, rfl⟩ := Option.map_eq_some_iff.1 hb
    obtain ⟨hmem, hf⟩ := List.mem_filter.1 hm
    exact ⟨hmem, hf, hs⟩
  · rintro ⟨hm, hf, hs⟩
    exact ⟨b.method, List.mem_filter.2 ⟨hm, hf⟩, by rw [hs]; rfl⟩

/-- Methods are bound in order, so that a method has no more bindings than it has descriptors. -/
theorem bind_sublist (d : Descriptor) (impl : Implementation ι) (filter : MethodDescriptor → Bool) :
    ((bind d impl filter).map (·.method)).Sublist d.methods := by
  have h : ∀ ms : List MethodDescriptor, ((ms.filterMap fun m =>
      (impl.bestMatch? m.name (m.params.map (·.type))).map (Binding.mk m)).map (·.method)).Sublist ms := by
    intro ms
    induction ms with
    | nil => exact .slnil
    | cons m ms ih =>
      rw [List.filterMap_cons]
      cases impl.bestMatch? m.name (m.params.map (·.type)) with
      | none => exact ih.cons m
      | some serving => exact ih.cons_cons m
  exact (h _).trans List.filter_sublist

variable (hb : e.IsBoundTo i impl filter)

include hb

theorem IsBoundTo.nodup_prototypes : (e.bindings.map (·.method.prototype)).Nodup := by
  have hmethods : e.descriptor.methods.map (·.prototype) = i.exported.map (·.prototype i.name) := by
    have h := hb.descriptor.methods
    generalize i.exported = ms at h ⊢
    generalize e.descriptor.methods = ds at h ⊢
    induction h with
    | nil => rfl
    | cons hd _ ih => rw [List.map_cons, List.map_cons, hd.prototype, ih]
  have hsub := (bind_sublist e.descriptor impl filter).map (·.prototype)
  rw [hmethods, List.map_map, ← hb.bindings] at hsub
  exact hb.sound.distinct.sublist hsub

theorem IsBoundTo.binding?_eq_some_iff {p : String} :
    e.binding? p = some b ↔ b ∈ e.bindings ∧ b.method.prototype = p := by
  unfold binding?
  constructor
  · intro h
    exact ⟨List.mem_of_find?_eq_some h, by simpa using List.find?_some h⟩
  · rintro ⟨hm, rfl⟩
    cases hf : e.bindings.find? fun b' => b'.method.prototype = b.method.prototype with
    | none => simpa using List.find?_eq_none.1 hf b hm
    | some b' =>
      have hp : b'.method.prototype = b.method.prototype := by simpa using List.find?_some hf
      rw [List.inj_on_of_nodup_map hb.nodup_prototypes (List.mem_of_find?_eq_some hf) hm hp]

omit hb in
theorem mem_prototypes {p : String} : p ∈ e.prototypes ↔ ∃ b ∈ e.bindings, b.method.prototype = p := by
  rw [prototypes, (List.mergeSort_perm ..).mem_iff, List.mem_map]

theorem IsBoundTo.prototypes_sorted : e.prototypes.Pairwise (· < ·) := by
  have hle : e.prototypes.Pairwise fun p q => decide (p ≤ q) = true := by
    refine List.pairwise_mergeSort (fun p q r hpq hqr => ?_) (fun p q => ?_) _
    · simp only [decide_eq_true_eq] at hpq hqr ⊢
      exact String.le_trans hpq hqr
    · simpa using String.le_total p q
  have hne : e.prototypes.Nodup := (List.mergeSort_perm ..).nodup_iff.2 hb.nodup_prototypes
  refine (hle.and hne).imp fun h => ?_
  exact Decidable.byContradiction fun hlt =>
    h.2 (String.le_antisymm (by simpa using h.1) (String.not_lt.1 hlt))

/-- The bindings of an endpoint, told by the methods of its interface. -/
theorem IsBoundTo.mem_bindings : b ∈ e.bindings ↔ ∃ m ∈ i.exported,
    m.DescribedBy i.name b.method ∧ filter b.method = true ∧
      impl.bestMatch? m.name (m.params.map (·.type)) = some b.serving := by
  rw [hb.bindings, mem_bind]
  constructor
  · rintro ⟨hd, hf, hs⟩
    obtain ⟨m, hm, hdesc⟩ := exists_left_of_mem hb.descriptor.methods hd
    rw [hdesc.name, hdesc.types] at hs
    exact ⟨m, hm, hdesc, hf, hs⟩
  · rintro ⟨m, hm, hdesc, hf, hs⟩
    obtain ⟨d, hd, hdesc'⟩ := exists_right_of_mem hb.descriptor.methods hm
    have heq : d = b.method := by
      have h := Method.of_eq_ok_iff.2 hdesc
      rw [Method.of_eq_ok_iff.2 hdesc'] at h
      exact Except.ok.inj h
    rw [hdesc.name, hdesc.types]
    exact ⟨heq ▸ hd, hf, hs⟩

omit hb

/-! ## Calls -/

/-- How a call at an endpoint goes: nothing is bound to its prototype, an argument cannot be bound,
no instance can be obtained, or the body runs. -/
inductive Ran (e : Endpoint ι) (l : Ledger) (ctx : CallContext) (c : MethodCall) :
    Ledger × Except Fault Json → Prop where
  | unknown : e.binding? c.prototype = none → Ran e l ctx c (l, .error (.methodNotFound c.prototype))
  | unbound {b : Binding ι} {f : Fault} : e.binding? c.prototype = some b →
      arguments b.method c = .error f → Ran e l ctx c (l, .error f)
  | unobtained {b : Binding ι} {args : Args} {l' : Ledger} {f : Fault} :
      e.binding? c.prototype = some b → arguments b.method c = .ok args →
      e.obtain c.prototype l = (l', .error f) → Ran e l ctx c (l', .error f)
  | invoked {b : Binding ι} {args : Args} {l' : Ledger} {made : Numbered ι} :
      e.binding? c.prototype = some b → arguments b.method c = .ok args →
      e.obtain c.prototype l = (l', .ok made) →
      Ran e l ctx c (l'.note (.invoked made.number c.prototype),
        (b.serving.body l'.invocations made.value ctx args).mapError (.target c.prototype))

variable {l l' : Ledger} {ctx : CallContext} {c : MethodCall}

theorem ran_run (e : Endpoint ι) (l : Ledger) (ctx : CallContext) (c : MethodCall) :
    e.Ran l ctx c (e.run l ctx c) := by
  unfold run
  split
  · rename_i h
    exact .unknown h
  · rename_i b hb
    split
    · rename_i f hf
      exact .unbound hb hf
    · rename_i args ha
      split
      · rename_i ho
        exact .unobtained hb ha ho
      · rename_i l' made ho
        have h : e.Ran l ctx c _ := .invoked hb ha ho
        dsimp only
        split <;> rename_i hbody <;> rw [hbody] at h <;> exact h

/-- Measuring a call does not change how it goes. -/
theorem call_outcome (e : Endpoint ι) (l : Ledger) (ctx : CallContext) (c : MethodCall) :
    (e.call l ctx c).2 = (e.run l ctx c).2 := by
  unfold call
  dsimp only
  split <;> rename_i h <;> exact h.symm

theorem bindArgument_error {prototype : String} {p : ParameterDescriptor} {supplied : Option Json}
    {f : Fault} (h : bindArgument prototype p supplied = .error f) :
    f = .missingParameter prototype p.name ∨ ∃ cause, f = .conversion prototype p.name cause := by
  unfold bindArgument at h
  split at h
  · split at h
    · exact .inl (Except.error.inj h).symm
    · cases h
  · split at h
    · cases h
    · split at h
      · cases h
      · exact .inr ⟨_, (Except.error.inj h).symm⟩

theorem arguments_error {m : MethodDescriptor} {f : Fault} (h : arguments m c = .error f) :
    ∃ p ∈ m.params, f = .missingParameter m.prototype p.name ∨
      ∃ cause, f = .conversion m.prototype p.name cause := by
  have hbind : ∀ (ps : List ParameterDescriptor) (acc : List (String × Json)),
      bindArguments m.prototype c.params ps acc = .error f →
      ∃ p ∈ ps, f = .missingParameter m.prototype p.name ∨
        ∃ cause, f = .conversion m.prototype p.name cause := by
    intro ps
    induction ps with
    | nil =>
      intro acc h
      cases h
    | cons p ps ih =>
      intro acc h
      rw [bindArguments] at h
      split at h
      · rename_i f' hf
        cases h
        exact ⟨p, List.mem_cons_self, bindArgument_error hf⟩
      · obtain ⟨q, hq, hf⟩ := ih _ h
        exact ⟨q, List.mem_cons_of_mem _ hq, hf⟩
  unfold arguments at h
  cases hb : bindArguments m.prototype c.params m.params [] with
  | ok values =>
    rw [hb] at h
    cases h
  | error f' =>
    rw [hb] at h
    cases h
    exact hbind _ _ hb

theorem obtain_error {p : String} {f : Fault} (h : e.obtain p l = (l', .error f)) :
    ∃ cause, f = .invocation p cause := by
  unfold obtain at h
  split at h
  · cases h
  · split at h
    · cases h
      exact ⟨_, rfl⟩
    · cases h

theorem run_methodNotFound_iff {p : String} :
    (e.run l ctx c).2 = .error (.methodNotFound p) ↔ p = c.prototype ∧ e.binding? p = none := by
  constructor
  · intro h
    have hr := ran_run e l ctx c
    generalize e.run l ctx c = r at h hr
    cases hr with
    | unknown hn =>
      cases h
      exact ⟨rfl, hn⟩
    | unbound hb hf =>
      cases h
      obtain ⟨_, -, hf | ⟨_, hf⟩⟩ := arguments_error hf <;> cases hf
    | unobtained hb ha ho =>
      cases h
      obtain ⟨_, hf⟩ := obtain_error ho
      cases hf
    | @invoked b args l' made hb ha ho =>
      dsimp only at h
      cases hbody : b.serving.body l'.invocations made.value ctx args <;> rw [hbody] at h <;> cases h
  · rintro ⟨rfl, hn⟩
    rw [run, hn]

/-- What an endpoint can be built of, and what it is bound to then. Building succeeds exactly when
the interface, the implementation and, for a shared instance, its factory are in order. Whatever
passes validation can be described, by its exported methods in order. Of these, an endpoint answers
to the prototypes of the ones that the filter accepts, sorted and each once; it finds no method for
any other call, and for these the method that matches best. -/
theorem build_binds_exactly (i : Interface) (impl : Implementation ι)
    (filter : MethodDescriptor → Bool) (data : Params) :
    ((∃ e, (build i impl filter data).2 = .ok e) ↔ impl.Bindable i data) ∧
    (validateInterface i = .ok () → ∃ d, Descriptor.of i = .ok d ∧ i.DescribedBy d) ∧
    ∀ e, (build i impl filter data).2 = .ok e →
      e.prototypes.Pairwise (· < ·) ∧
      (∀ p, p ∈ e.prototypes ↔ ∃ m ∈ i.methods, ∃ d, m.exported = true ∧
        m.DescribedBy i.name d ∧ filter d = true ∧ m.prototype i.name = p) ∧
      (∀ l ctx c, (e.call l ctx c).2 = .error (.methodNotFound c.prototype) ↔
        c.prototype ∉ e.prototypes) ∧
      ∀ m ∈ i.methods, ∀ d, m.exported = true → m.DescribedBy i.name d → filter d = true →
        ∃ serving, impl.bestMatch? m.name (m.params.map (·.type)) = some serving ∧
          e.binding? (m.prototype i.name) = some ⟨d, serving⟩ := by
  refine ⟨build_ok_iff, fun h => ?_, fun e h => ?_⟩
  · have hi := Interface.validate_eq_ok_iff.1 h
    obtain ⟨d, hd⟩ := hi.exists_descriptor
    exact ⟨d, hd, hi.describedBy hd⟩
  · have hb := isBoundTo_of_build h
    have hbound : ∀ m ∈ i.methods, ∀ d, m.exported = true → m.DescribedBy i.name d → filter d = true →
        ∃ serving, impl.bestMatch? m.name (m.params.map (·.type)) = some serving ∧
          (⟨d, serving⟩ : Binding ι) ∈ e.bindings := by
      intro m hm d he hd hf
      obtain ⟨d', hd', hdesc⟩ := exists_right_of_mem hb.descriptor.methods
        (Interface.mem_exported.2 ⟨hm, he⟩)
      obtain ⟨serving, hs, -⟩ := (Implementation.serves_iff hdesc).1 (hb.served d' hd')
      exact ⟨serving, hs, hb.mem_bindings.2 ⟨m, Interface.mem_exported.2 ⟨hm, he⟩, hd, hf, hs⟩⟩
    refine ⟨hb.prototypes_sorted, fun p => ?_, fun l ctx c => ?_, fun m hm d he hd hf => ?_⟩
    · rw [mem_prototypes]
      constructor
      · rintro ⟨b, hbm, rfl⟩
        obtain ⟨m, hm, hd, hf, -⟩ := hb.mem_bindings.1 hbm
        obtain ⟨hmem, he⟩ := Interface.mem_exported.1 hm
        exact ⟨m, hmem, b.method, he, hd, hf, hd.prototype.symm⟩
      · rintro ⟨m, hm, d, he, hd, hf, rfl⟩
        obtain ⟨serving, -, hbm⟩ := hbound m hm d he hd hf
        exact ⟨_, hbm, hd.prototype⟩
    · rw [call_outcome, run_methodNotFound_iff, mem_prototypes, eq_self, true_and]
      rw [binding?, List.find?_eq_none]
      simp
    · obtain ⟨serving, hs, hbm⟩ := hbound m hm d he hd hf
      exact ⟨serving, hs, hb.binding?_eq_some_iff.2 ⟨hbm, hd.prototype⟩⟩

end Endpoint

/-- A method with two parameters of one name, one that may be left out, and a public one. -/
def sampleQuote : Method where
  name := "quote"
  isPublic := true
  isStatic := false
  exported := true
  params := [⟨some " amount ", .primitive .int, true, false⟩, ⟨some "amount", .primitive .short, true, false⟩,
    ⟨some "note", .string, false, false⟩, ⟨some "tag", .foreign "Any", false, true⟩]
  returns := .string
  description := ""

/-- An interface with two exported methods, and one that breaks every rule but is not exported. -/
def sampleInterface : Interface where
  name := "Rates"
  remote := true
  component := true
  methods := [sampleQuote,
    { name := "reset", isPublic := true, isStatic := false, exported := true, description := "",
      params := [], returns := .boxed .boolean },
    { name := "audit", isPublic := false, isStatic := true, exported := false, description := "",
      params := [⟨none, .primitive .int, false, false⟩], returns := .unit }]

/-- A shared implementation with wider parameters than declared, which answers with its arguments. -/
def sampleImplementation : Implementation Unit where
  name := "RatesImpl"
  instancing := .stateless
  build _ _ := .ok ()
  inject := none
  methods := [
    ⟨"quote", [.boxed .int, .primitive .short, .foreign "Text", .foreign "Any"], .string, true,
      fun _ _ _ args => .ok (.object args.values)⟩,
    ⟨"reset", [], .boxed .boolean, true, fun _ _ _ _ => .ok (.bool true)⟩]

theorem Endpoint.build_binds_exactly_sample :
    ∃ e, (build sampleInterface sampleImplementation (fun m => m.name = "quote") .empty).2 = .ok e ∧
      sampleImplementation.Bindable sampleInterface .empty ∧
      "Rates.quote(ISTO)T" ∈ e.prototypes ∧ "Rates.reset()z" ∉ e.prototypes := by
  have hbuilt : ∃ e, (build sampleInterface sampleImplementation (fun m => m.name = "quote") .empty).2 =
      .ok e ∧ (e.call .empty ⟨none, .empty⟩ ⟨"Rates.reset()z", []⟩).2 =
        .error (.methodNotFound "Rates.reset()z") := ⟨_, rfl, rfl⟩
  obtain ⟨e, he, hcall⟩ := hbuilt
  obtain ⟨hiff, -, hbound⟩ := build_binds_exactly sampleInterface sampleImplementation
    (fun m => m.name = "quote") .empty
  obtain ⟨-, hmem, hmissing, -⟩ := hbound e he
  refine ⟨e, he, hiff.1 ⟨e, he⟩, (hmem _).2 ⟨_, .head _, _, rfl, Method.of_eq_ok_iff.1 rfl, rfl, rfl⟩, ?_⟩
  exact (hmissing .empty ⟨none, .empty⟩ ⟨"Rates.reset()z", []⟩).1 hcall

end Switchboard.Rpc
