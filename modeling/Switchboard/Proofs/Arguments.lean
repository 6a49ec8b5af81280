import Switchboard.Proofs.Binding
import Switchboard.Proofs.Canonical

/-!
# Arguments

What the body of a method is handed. Arguments are bound by name, a later
parameter over an earlier one of its name, so the last parameter of each name
decides what stands under it. Three rules meet here: a parameter may be left out
only if it can be null, what is supplied is converted to the declared type, and a
method serves a declared one only if its parameters accept the declared types.
Together they keep every value that is not of its type from the implementation.
-/

namespace Switchboard.Rpc

/-! ## Values and parameter types -/

/-- What an implementation may be handed for a parameter of the type. -/
def Fits (formal : ValueType) (v : Json) : Prop :=
  formal.isForeign = true ∨ (v = .null ∧ formal.isPrimitive = false) ∨ Canonical formal v

variable {formal actual : ValueType} {v w : Json}

theorem Fits.primitive {kind : Scalar} (h : Fits (.primitive kind) v) : CanonicalScalar kind v := by
  rcases h with h | ⟨-, h⟩ | h
  · cases h
  · cases h
  · exact h

/-- A type that accepts another can take its canonical values. -/
theorem fits_of_accepts (h : formal.accepts actual = true) (hv : Canonical actual v) :
    Fits formal v := by
  unfold ValueType.accepts at h
  rcases Bool.or_eq_true_iff.1 h with heq | h
  · obtain rfl := of_decide_eq_true heq
    exact .inr (.inr hv)
  · split at h
    · obtain rfl := of_decide_eq_true h
      exact .inr (.inr (.inr hv))
    · exact .inl rfl
    · cases h

/-- A type that accepts one that can be null can take null. -/
theorem fits_null_of_accepts (h : formal.accepts actual = true) (ha : actual.isPrimitive = false) :
    Fits formal .null := by
  cases formal with
  | primitive k =>
    obtain rfl : .primitive k = actual := by simpa [ValueType.accepts] using h
    cases ha
  | _ => exact .inr (.inl ⟨rfl, rfl⟩)

/-- What is not null converts to something that is not null. -/
theorem isNull_of_convert {t : ValueType} (hv : v.isNull = false) (h : convert t v = .ok w) :
    w.isNull = false := by
  have hscalar : ∀ {k type}, convertScalar k type v = .ok w → w.isNull = false :=
    fun h => (convertScalar_canonical h).isNull
  cases t with
  | unit => simp [convert] at h
  | foreign n => simp [convert] at h
  | primitive k =>
    rw [convert, hv] at h
    exact hscalar h
  | boxed k =>
    rw [convert, hv] at h
    exact hscalar h
  | string =>
    rw [convert, hv] at h
    cases v <;> cases h <;> rfl
  | enumeration n cs =>
    rw [convert, hv] at h
    cases v with
    | string s =>
      simp only [convertConstant, Bool.false_eq_true, ↓reduceIte] at h
      split at h <;> cases h
      rfl
    | _ => cases h
  | bean n ps =>
    cases v with
    | null => cases hv
    | object source =>
      cases h
      rfl
    | _ => simp [convert] at h

/-! ## The method that matches best -/

theorem accepts_self (t : ValueType) : t.accepts t = true := by simp [ValueType.accepts]

theorem forall₂_accepts_of_acceptsAll {formals actuals : List ValueType}
    (hl : formals.length = actuals.length)
    (h : Implementation.acceptsAll formals actuals = true) :
    List.Forall₂ (fun f a => f.accepts a = true) formals actuals :=
  List.forall₂_iff_zip.2 ⟨hl, fun hm => List.all_eq_true.1 h _ hm⟩

theorem Implementation.bestMatch?_accepts {ι : Type} {impl : Implementation ι} {name : String}
    {params : List ValueType} {found : ImplementedMethod ι}
    (h : impl.bestMatch? name params = some found) :
    List.Forall₂ (fun f a => f.accepts a = true) found.params params := by
  rcases Option.or_eq_some_iff.1 h with h | ⟨-, h⟩
  · have hexact := List.find?_some h
    simp only [isExact, Bool.and_eq_true, decide_eq_true_eq] at hexact
    rw [hexact.2]
    exact List.forall₂_same.2 fun t _ => accepts_self t
  · have hsuit := List.find?_some h
    simp only [isSuitable, isCandidate, Bool.and_eq_true, decide_eq_true_eq] at hsuit
    exact forall₂_accepts_of_acceptsAll hsuit.1.2 hsuit.2

/-! ## Binding by name -/

namespace Parameter

variable {p : Parameter} {given : Option Json}

/-- A public parameter gets what is given, or null where nothing is and nothing need be. -/
def GetsRaw (p : Parameter) (given : Option Json) (v : Json) : Prop :=
  given = some v ∨ (given = none ∧ p.required = false ∧ v = .null)

/-- Any other parameter gets what is given as a value of its type that is not null, or null where
nothing is given and nothing need be. -/
def GetsConverted (p : Parameter) (given : Option Json) (v : Json) : Prop :=
  (∃ raw, given = some raw ∧ convert p.type raw = .ok v ∧ Canonical p.type v ∧ v ≠ .null) ∨
    (given = none ∧ p.required = false ∧ v = .null)

/-- What a parameter gets, and what the implementation's parameter at its place makes of it. -/
def Gets (p : Parameter) (given : Option Json) (formal : ValueType) (v : Json) : Prop :=
  if p.isPublic then p.GetsRaw given v
  else p.GetsConverted given v ∧ Fits formal v ∧
    ∀ kind, formal = .primitive kind → CanonicalScalar kind v

/-- The parameter stands at the position, and none of its name stands behind it. -/
def IsLast (ps : List Parameter) (k : Nat) (p : Parameter) (name : String) : Prop :=
  ps[k]? = some p ∧ p.trimmedName? = some name ∧
    ∀ j q, k < j → ps[j]? = some q → q.trimmedName? ≠ some name

theorem GetsConverted.fits (h : p.GetsConverted given v) (hp : p.IsCallable)
    (hf : formal.accepts p.type = true) : Fits formal v := by
  rcases h with ⟨_, -, -, hc, -⟩ | ⟨-, hr, rfl⟩
  · exact fits_of_accepts hf hc
  · refine fits_null_of_accepts hf (hp.nullable.resolve_left ?_)
    rw [hr]
    exact Bool.false_ne_true

end Parameter

/-- The value supplied under a name, null counting as none. -/
def MethodCall.given (c : MethodCall) (name : String) : Option Json :=
  (Keyed.find? name c.params).filter fun v => !v.isNull

namespace Endpoint

variable {prototype : String} {supplied acc values : List (String × Json)}
  {ps : List ParameterDescriptor}

theorem bindArgument_ok {d : ParameterDescriptor} {p : Parameter} (hd : p.DescribedBy d)
    {value : Option Json} (h : bindArgument prototype d value = .ok v) :
    if p.isPublic then p.GetsRaw (value.filter fun v => !v.isNull) v
    else p.GetsConverted (value.filter fun v => !v.isNull) v := by
  rw [← hd.isPublic]
  unfold bindArgument at h
  split at h
  · rename_i hn
    split at h
    · cases h
    · rename_i hr
      cases h
      have hr : p.required = false := by simpa [hd.required] using hr
      split
      · exact .inr ⟨hn, hr, rfl⟩
      · exact .inr ⟨hn, hr, rfl⟩
  · rename_i raw hraw
    rw [hraw]
    have hnull : raw.isNull = false := by
      simpa using (Option.filter_eq_some_iff.1 hraw).2
    split at h
    · rename_i hpub
      cases h
      rw [if_pos hpub]
      exact .inl rfl
    · rename_i hpub
      rw [if_neg hpub]
      split at h
      · rename_i w hw
        cases h
        rw [hd.type] at hw
        refine .inl ⟨raw, rfl, hw, convert_canonical p.type hw, ?_⟩
        rintro rfl
        exact Bool.noConfusion (isNull_of_convert hnull hw)
      · cases h

theorem find?_bindArguments_of_absent {name : String} (hn : ∀ d ∈ ps, d.name ≠ name)
    (h : bindArguments prototype supplied ps acc = .ok values) :
    Keyed.find? name values = Keyed.find? name acc := by
  induction ps generalizing acc with
  | nil =>
    cases h
    rfl
  | cons d ps ih =>
    obtain ⟨hd, hps⟩ := List.forall_mem_cons.1 hn
    rw [bindArguments] at h
    split at h
    · cases h
    · rw [ih hps h, Keyed.find?_insert, if_neg hd]

/-- Under each name stands what the last parameter of that name was bound to. -/
theorem find?_bindArguments {k : Nat} {d : ParameterDescriptor} (hk : ps[k]? = some d)
    (hlast : ∀ j d', k < j → ps[j]? = some d' → d'.name ≠ d.name)
    (h : bindArguments prototype supplied ps acc = .ok values) :
    ∃ v, bindArgument prototype d (Keyed.find? d.name supplied) = .ok v ∧
      Keyed.find? d.name values = some v := by
  induction ps generalizing acc k with
  | nil => cases hk
  | cons d' ps ih =>
    rw [bindArguments] at h
    split at h
    · cases h
    rename_i v hv
    cases k with
    | zero =>
      cases hk
      refine ⟨v, hv, ?_⟩
      rw [find?_bindArguments_of_absent (fun q hq => ?_) h, Keyed.find?_insert, if_pos rfl]
      obtain ⟨j, hj⟩ := List.getElem?_of_mem hq
      exact hlast (j + 1) q (Nat.succ_pos j) hj
    | succ k =>
      exact ih hk (fun j q hj hq => hlast (j + 1) q (Nat.succ_lt_succ hj) hq) h

theorem isSome_find?_bindArguments {name : String}
    (h : bindArguments prototype supplied ps acc = .ok values) :
    (Keyed.find? name values).isSome = true ↔
      (Keyed.find? name acc).isSome = true ∨ ∃ d ∈ ps, d.name = name := by
  induction ps generalizing acc with
  | nil =>
    cases h
    simp
  | cons d ps ih =>
    rw [bindArguments] at h
    split at h
    · cases h
    · rw [ih h, Keyed.find?_insert]
      by_cases hd : d.name = name <;> simp [hd]

variable {ι : Type} {i : Interface} {impl : Implementation ι} {filter : MethodDescriptor → Bool}
  {data : Params} {e : Endpoint ι} {l : Ledger} {ctx : CallContext} {c : MethodCall}

/-- Measuring a call runs no body. -/
theorem invocations_call (e : Endpoint ι) (l : Ledger) (ctx : CallContext) (c : MethodCall) :
    (e.call l ctx c).1.invocations = (e.run l ctx c).1.invocations := by
  unfold call
  dsimp only
  split <;> rfl

theorem invocations_instantiate (impl : Implementation ι) (data : Params) (l : Ledger) :
    (instantiate impl data l).1.invocations = l.invocations := by
  unfold instantiate
  dsimp only
  split
  · rfl
  · split
    · rfl
    · split <;> rfl

theorem invocations_obtain (e : Endpoint ι) (prototype : String) (l : Ledger) :
    (e.obtain prototype l).1.invocations = l.invocations := by
  have h := invocations_instantiate e.implementation e.data l
  unfold obtain
  split
  · rfl
  · split <;> rename_i hi <;> rw [hi] at h <;> exact h

/-- The body of a method never gets a value that is not of its type. When a call gets as far as a
body, that is the body of the method that matches the called one best, and it is handed an argument
under each parameter name and none besides. The last parameter of a name gets what is supplied under
it: a public one as it is, any other one converted, and then it also fits the parameter at the same
place of the body's method. Null is bound only where a parameter may be left out. -/
theorem call_arguments_typed (hb : (build i impl filter data).2 = .ok e)
    (hrun : (e.call l ctx c).1.invocations ≠ l.invocations) :
    ∃ m ∈ i.methods, m.exported = true ∧ m.prototype i.name = c.prototype ∧
      ∃ serving runs value args,
        impl.bestMatch? m.name (m.params.map (·.type)) = some serving ∧
        (e.call l ctx c).2 = (serving.body runs value ctx args).mapError (.target c.prototype) ∧
        (∀ name, (Keyed.find? name args.values).isSome = true ↔
          ∃ p ∈ m.params, p.trimmedName? = some name) ∧
        ∀ k p name, Parameter.IsLast m.params k p name →
          ∃ formal v, serving.params[k]? = some formal ∧ Keyed.find? name args.values = some v ∧
            p.Gets (c.given name) formal v := by
  have hb := isBoundTo_of_build hb
  rw [call_outcome]
  rw [invocations_call] at hrun
  have hr := ran_run e l ctx c
  generalize e.run l ctx c = r at hrun hr
  cases hr with
  | unknown hn => exact absurd rfl hrun
  | unbound hbm hf => exact absurd rfl hrun
  | unobtained hbm ha ho =>
    have hl := invocations_obtain e c.prototype l
    rw [ho] at hl
    exact absurd hl hrun
  | @invoked b args l' made hbm ha ho =>
    obtain ⟨hmem, hp⟩ := hb.binding?_eq_some_iff.1 hbm
    obtain ⟨m, hm, hd, -, hs⟩ := hb.mem_bindings.1 hmem
    obtain ⟨him, he⟩ := Interface.mem_exported.1 hm
    obtain ⟨values, hv, rfl⟩ := map_eq_ok_iff.1 ha
    refine ⟨m, him, he, hd.prototype ▸ hp, b.serving, _, _, _, hs, rfl, fun name => ?_,
      fun k p name ⟨hk, hname, hlast⟩ => ?_⟩
    · rw [isSome_find?_bindArguments hv]
      simp only [Keyed.find?, Option.isSome_none, Bool.false_eq_true, false_or]
      constructor
      · rintro ⟨d, hdm, rfl⟩
        obtain ⟨p, hpm, hdesc⟩ := exists_left_of_mem hd.params hdm
        exact ⟨p, hpm, hdesc.name⟩
      · rintro ⟨p, hpm, hname⟩
        obtain ⟨d, hdm, hdesc⟩ := exists_right_of_mem hd.params hpm
        exact ⟨d, hdm, Option.some.inj (hdesc.name.symm.trans hname)⟩
    · obtain ⟨d, hdk, hdesc⟩ := exists_right_of_getElem? hd.params hk
      obtain rfl : d.name = name := Option.some.inj (hdesc.name.symm.trans hname)
      have hformal : ∃ formal, b.serving.params[k]? = some formal ∧ formal.accepts p.type = true :=
        exists_right_of_getElem? (Implementation.bestMatch?_accepts hs).flip (by simp [hk])
      obtain ⟨formal, hfk, hacc⟩ := hformal
      obtain ⟨v, hv', hfind⟩ := find?_bindArguments hdk (fun j d' hj hd' hne => by
        obtain ⟨q, hq, hdesc'⟩ := exists_right_of_getElem? hd.params.flip hd'
        exact hlast j q hj hq (hne ▸ hdesc'.name)) hv
      refine ⟨formal, v, hfk, hfind, ?_⟩
      have hgets := bindArgument_ok hdesc hv'
      have hcallable := (hb.sound.callable m him he).params p (List.mem_of_getElem? hk)
      unfold Parameter.Gets
      split
      · rwa [if_pos (by assumption)] at hgets
      · rw [if_neg (by assumption)] at hgets
        have hfits := hgets.fits hcallable hacc
        exact ⟨hgets, hfits, fun kind hk => (hk ▸ hfits).primitive⟩

/-- Of two parameters of one name the second decides, and text is read as the number it should be. -/
theorem call_arguments_typed_sample :
    ∃ e, (build sampleInterface sampleImplementation (fun _ => true) .empty).2 = .ok e ∧
      (e.call .empty ⟨none, .empty⟩ ⟨"Rates.quote(ISTO)T", [("amount", .string " 7 ")]⟩).1.invocations ≠ 0 ∧
      ∃ args : Args, Keyed.find? "amount" args.values = some (.int 7) ∧
        CanonicalScalar .short (.int 7) := by
  have hbuilt : ∃ e, (build sampleInterface sampleImplementation (fun _ => true) .empty).2 = .ok e ∧
      (e.call .empty ⟨none, .empty⟩ ⟨"Rates.quote(ISTO)T", [("amount", .string " 7 ")]⟩
        ).1.invocations ≠ 0 := ⟨_, rfl, by decide⟩
  obtain ⟨e, he, hrun⟩ := hbuilt
  obtain ⟨m, hm, -, hp, serving, -, -, args, hs, -, -, hargs⟩ := call_arguments_typed he hrun
  simp only [sampleInterface, List.mem_cons, List.not_mem_nil, or_false] at hm
  rcases hm with rfl | rfl | rfl
  · have hlast :
        Parameter.IsLast sampleQuote.params 1 ⟨some "amount", .primitive .short, true, false⟩ "amount" := by
      refine ⟨rfl, by decide, fun j q hj hq => ?_⟩
      match j, hj, hq with
      | 2, _, rfl => decide
      | 3, _, rfl => decide
    obtain ⟨formal, v, hformal, hv, hgets⟩ := hargs 1 _ _ hlast
    obtain rfl : .primitive .short = formal := by
      cases hs
      exact Option.some.inj hformal
    obtain ⟨⟨raw, hraw, hconv, -⟩ | ⟨hnone, -⟩, -, hscalar⟩ := hgets
    · cases hraw
      cases hconv
      exact ⟨e, he, hrun, args, hv, hscalar .short rfl⟩
    · cases hnone
  · exact absurd hp (by decide)
  · exact absurd hp (by decide)

end Endpoint
end Switchboard.Rpc
