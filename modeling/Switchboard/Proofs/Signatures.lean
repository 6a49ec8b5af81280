import Mathlib.Data.List.Dedup
import Switchboard.Proofs.Arguments

/-!
# Methods that can be called in full

Which methods of an interface that passed validation can be called with all
their parameters. Arguments are bound one by one and kept by name, so there are
as many of them as there are names: two parameters whose names agree once the
blanks are gone share one. And a parameter that must be given and is not public
needs a type that something converts to. Validation asks for neither.
-/

namespace Switchboard

namespace Rpc

/-! ## Types with values -/

/-- Something other than null converts to the type. -/
def ValueType.HasValues : ValueType → Prop
  | .unit | .foreign _ => False
  | .enumeration _ constants => constants ≠ []
  | _ => True

instance : (t : ValueType) → Decidable t.HasValues
  | .unit | .foreign _ => isFalse id
  | .enumeration _ constants => inferInstanceAs (Decidable (constants ≠ []))
  | .primitive _ | .boxed _ | .string | .bean .. => isTrue trivial

def Scalar.specimen : Scalar → Json
  | .boolean => .bool false
  | .float | .double => .double (.zero false)
  | .char => .string "0"
  | _ => .int 0

/-- A value that converts to the type, where there is one. -/
def ValueType.specimen : ValueType → Json
  | .primitive k | .boxed k => k.specimen
  | .string => .string ""
  | .enumeration _ (c :: _) => .string c
  | .bean .. => .object []
  | _ => .null

theorem canonicalScalar_specimen (k : Scalar) : CanonicalScalar k k.specimen := by
  cases k with
  | boolean => exact ⟨_, rfl⟩
  | float => exact ⟨_, rfl, Double.fitsSingle_zero false⟩
  | double => exact ⟨_, rfl⟩
  | char => exact ⟨'0', rfl⟩
  | byte | short | int | long => exact ⟨0, _, _, rfl, rfl, by decide⟩

theorem ValueType.HasValues.convert_specimen {t : ValueType} (h : t.HasValues) :
    t.specimen.isNull = false ∧ ∃ w, convert t t.specimen = .ok w := by
  cases t with
  | unit | foreign => exact h.elim
  | primitive k | boxed k =>
    have hc := canonicalScalar_specimen k
    refine ⟨hc.isNull, k.specimen, ?_⟩
    rw [ValueType.specimen, convert, hc.isNull]
    exact convertScalar_of_canonical hc
  | string => exact ⟨rfl, _, rfl⟩
  | enumeration n constants =>
    cases constants with
    | nil => exact absurd rfl h
    | cons c cs => exact ⟨rfl, .string c, if_pos List.mem_cons_self⟩
  | bean n ps => exact ⟨rfl, _, by rw [ValueType.specimen, convert]⟩

theorem hasValues_of_convert {t : ValueType} {v w : Json} (hv : v.isNull = false)
    (h : convert t v = .ok w) : t.HasValues := by
  cases t with
  | unit | foreign => simp [convert] at h
  | enumeration n constants =>
    rintro rfl
    rw [convert, hv] at h
    cases v <;> simp [convertConstant] at h
  | _ => trivial

/-! ## One argument for each name -/

/-- What is wrong with what a call gives for the parameter. -/
inductive ParameterDescriptor.Refuses (prototype : String) (d : ParameterDescriptor) (given : Option Json) :
    Fault → Prop
  | missing : given = none → d.required = true →
      Refuses prototype d given (.missingParameter prototype d.name)
  | unconverted {raw : Json} {cause : ConversionFault} : given = some raw → d.isPublic = false →
      convert d.type raw = .error cause → Refuses prototype d given (.conversion prototype d.name cause)

namespace Endpoint

variable {prototype : String} {supplied acc values : List (String × Json)}
  {ps : List ParameterDescriptor} {d : ParameterDescriptor} {f : Fault}

theorem bindArgument_error_iff {value : Option Json} : bindArgument prototype d value = .error f ↔
    d.Refuses prototype (value.filter fun v => !v.isNull) f := by
  unfold bindArgument
  constructor
  · intro h
    split at h
    · rename_i hn
      split at h
      · rename_i hr
        cases h
        exact .missing hn hr
      · cases h
    · rename_i raw hraw
      split at h
      · cases h
      · rename_i hp
        split at h
        · cases h
        · rename_i cause hc
          cases h
          exact .unconverted hraw (by simpa using hp) hc
  · intro h
    cases h with
    | missing hn hr => simp [hn, hr]
    | unconverted hraw hp hc => simp [hraw, hp, hc]

/-- The parameters are bound one by one, each to what stands under its name. -/
theorem exists_bindArguments_iff :
    (∃ values, bindArguments prototype supplied ps acc = .ok values) ↔
      ∀ d ∈ ps, ∃ v, bindArgument prototype d (Keyed.find? d.name supplied) = .ok v := by
  induction ps generalizing acc with
  | nil => simp [bindArguments]
  | cons d ps ih =>
    rw [bindArguments, List.forall_mem_cons]
    cases bindArgument prototype d (Keyed.find? d.name supplied) with
    | error f => simp
    | ok v => simpa using ih

theorem sorted_bindArguments (hacc : Keyed.Sorted acc)
    (h : bindArguments prototype supplied ps acc = .ok values) : Keyed.Sorted values := by
  induction ps generalizing acc with
  | nil =>
    cases h
    exact hacc
  | cons d ps ih =>
    rw [bindArguments] at h
    split at h
    · cases h
    · exact ih (hacc.insert d.name _) h

theorem length_arguments {d : MethodDescriptor} {c : MethodCall} {args : Args}
    (h : arguments d c = .ok args) : args.values.length = (d.params.map (·.name)).dedup.length := by
  obtain ⟨values, hv, rfl⟩ := map_eq_ok_iff.1 h
  have hmem (name : String) : name ∈ values.map Prod.fst ↔ name ∈ (d.params.map (·.name)).dedup := by
    rw [← Keyed.isSome_find?_iff, isSome_find?_bindArguments hv]
    simp [Keyed.find?]
  have hperm := (List.perm_ext_iff_of_nodup (sorted_bindArguments Keyed.sorted_nil hv).nodup
    (List.nodup_dedup _)).2 hmem
  rw [← hperm.length_eq, List.length_map]

theorem length_arguments_eq_iff {d : MethodDescriptor} {c : MethodCall} {args : Args}
    (h : arguments d c = .ok args) :
    args.values.length = d.params.length ↔ (d.params.map (·.name)).Nodup := by
  rw [length_arguments h, ← List.dedup_eq_self]
  constructor
  · exact fun hl => (List.dedup_sublist _).eq_of_length (by rw [hl, List.length_map])
  · intro hd
    rw [hd, List.length_map]

end Endpoint

/-! ## A call with all parameters -/

/-- What a call in full gives for the parameter; null where it may be left out. -/
def ParameterDescriptor.specimen (d : ParameterDescriptor) : Json :=
  if d.required then if d.isPublic then .bool true else d.type.specimen else .null

def MethodDescriptor.fullCall (d : MethodDescriptor) : MethodCall :=
  ⟨d.prototype, Keyed.ofList (d.params.map fun p => (p.name, p.specimen))⟩

theorem bindArgument_specimen {prototype : String} {d : ParameterDescriptor}
    (h : d.required = true → d.isPublic = false → d.type.HasValues) :
    ∃ v, Endpoint.bindArgument prototype d (some d.specimen) = .ok v := by
  cases hb : Endpoint.bindArgument prototype d (some d.specimen) with
  | ok v => exact ⟨v, rfl⟩
  | error f =>
    have hspecimen (hr : d.required = true) : d.specimen.isNull = false ∧
        (d.isPublic = false → ∃ w, convert d.type d.specimen = .ok w) := by
      cases hp : d.isPublic with
      | true => simp [ParameterDescriptor.specimen, hr, hp, Json.isNull]
      | false => simpa [ParameterDescriptor.specimen, hr, hp] using (h hr hp).convert_specimen
    cases Endpoint.bindArgument_error_iff.1 hb with
    | missing hn hr => simp [Option.filter, (hspecimen hr).1] at hn
    | @unconverted raw cause hraw hp hc =>
      obtain ⟨heq, hnull⟩ := Option.filter_eq_some_iff.1 hraw
      cases heq
      cases hr : d.required with
      | false => simp [ParameterDescriptor.specimen, hr, Json.isNull] at hnull
      | true =>
        obtain ⟨w, hw⟩ := (hspecimen hr).2 hp
        cases hw.symm.trans hc

/-- All parameters of the method can be given at once, and are kept apart. -/
structure Method.BindsInFull (m : Method) : Prop where
  distinct : (m.params.map Parameter.trimmedName?).Nodup
  convertible : ∀ p ∈ m.params, p.required = true → p.isPublic = false → p.type.HasValues

variable {i : Interface} {m : Method} {d : MethodDescriptor} {declaring : String}

theorem Method.DescribedBy.trimmedNames (h : m.DescribedBy declaring d) :
    m.params.map Parameter.trimmedName? = d.params.map fun p => some p.name :=
  map_eq_map_of_forall₂ h.params fun _ _ hp => hp.name

theorem Method.DescribedBy.nodup_names_iff (h : m.DescribedBy declaring d) :
    (m.params.map Parameter.trimmedName?).Nodup ↔ (d.params.map (·.name)).Nodup := by
  have hinj : Function.Injective (some : String → Option String) := fun _ _ => Option.some.inj
  rw [h.trimmedNames, ← List.nodup_map_iff hinj (l := d.params.map (·.name)), List.map_map]
  rfl

theorem Method.DescribedBy.hasValues (h : m.DescribedBy declaring d) {c : MethodCall} {args : Args}
    (ha : Endpoint.arguments d c = .ok args) :
    ∀ p ∈ m.params, p.required = true → p.isPublic = false → p.type.HasValues := by
  intro p hp hr hpub
  obtain ⟨values, hv, -⟩ := map_eq_ok_iff.1 ha
  obtain ⟨q, hq, hdesc⟩ := exists_right_of_mem h.params hp
  obtain ⟨v, hb⟩ := Endpoint.exists_bindArguments_iff.1 ⟨values, hv⟩ q hq
  have hgets := Endpoint.bindArgument_ok hdesc hb
  rw [hpub] at hgets
  rcases hgets with ⟨raw, hraw, hc, -⟩ | ⟨-, hr', -⟩
  · exact hasValues_of_convert (by simpa using (Option.filter_eq_some_iff.1 hraw).2) hc
  · rw [hr] at hr'
    cases hr'

theorem Method.DescribedBy.arguments_fullCall (h : m.DescribedBy declaring d) (hm : m.BindsInFull) :
    ∃ args, Endpoint.arguments d d.fullCall = .ok args := by
  suffices ∃ values, Endpoint.bindArguments d.prototype d.fullCall.params d.params [] = .ok values by
    obtain ⟨values, hv⟩ := this
    exact ⟨⟨values⟩, map_eq_ok_iff.2 ⟨values, hv, rfl⟩⟩
  rw [Endpoint.exists_bindArguments_iff]
  intro p hp
  obtain ⟨q, hq, hdesc⟩ := exists_left_of_mem h.params hp
  have hfind : Keyed.find? p.name d.fullCall.params = some p.specimen := by
    have hnodup : (d.params.map fun p => (p.name, p.specimen)).map Prod.fst |>.Nodup := by
      rw [List.map_map]
      exact h.nodup_names_iff.1 hm.distinct
    exact (Keyed.find?_ofList hnodup).trans (Keyed.find?_of_mem hnodup (List.mem_map_of_mem hp))
  rw [hfind]
  refine bindArgument_specimen ?_
  rw [hdesc.required, hdesc.isPublic, hdesc.type]
  exact hm.convertible q hq

/-- An exported method of an interface that passes validation has a descriptor; what a call binds
with it has an entry of its own for each parameter of the method, for some call, exactly if the
trimmed names of the parameters are distinct and whatever must be given and converted is of a type
with values. -/
theorem binds_in_full_iff (hi : validateInterface i = .ok ()) (hm : m ∈ i.methods)
    (he : m.exported = true) :
    ∃ d, MethodDescriptor.of i.name m = .ok d ∧
      ((∃ c args, Keyed.Sorted c.params ∧ Endpoint.arguments d c = .ok args ∧
        args.values.length = m.params.length) ↔ m.BindsInFull) := by
  have hcallable := (Interface.validate_eq_ok_iff.1 hi).callable m hm he
  obtain ⟨d, hd⟩ := hcallable.exists_describedBy i.name
  refine ⟨d, Method.of_eq_ok_iff.2 hd, ?_⟩
  rw [hd.params.length_eq]
  constructor
  · rintro ⟨c, args, -, ha, hl⟩
    exact ⟨hd.nodup_names_iff.2 ((Endpoint.length_arguments_eq_iff ha).1 hl), hd.hasValues ha⟩
  · intro hfull
    obtain ⟨args, ha⟩ := hd.arguments_fullCall hfull
    exact ⟨d.fullCall, args, Keyed.sorted_ofList _, ha,
      (Endpoint.length_arguments_eq_iff ha).2 (hd.nodup_names_iff.1 hfull.distinct)⟩

/-- The names of the parameters differ only in the blanks around them. -/
def sampleMove : Method where
  name := "move"
  isPublic := true
  isStatic := false
  exported := true
  params := [⟨some "bay", .primitive .int, true, false⟩, ⟨some " bay ", .primitive .int, true, false⟩]
  returns := .boxed .boolean
  description := ""

/-- The parameter must be given, and nothing converts to it. -/
def sampleStow : Method where
  name := "stow"
  isPublic := true
  isStatic := false
  exported := true
  params := [⟨some "crate", .foreign "Crate", true, false⟩]
  returns := .boxed .boolean
  description := ""

/-- A parameter of each kind that can be given or left out. -/
def sampleLabel : Method where
  name := "label"
  isPublic := true
  isStatic := false
  exported := true
  params := [⟨some "text", .enumeration "Text" ["fragile"], true, false⟩,
    ⟨some " size", .bean "Size" [⟨"width", .primitive .int, true⟩], true, false⟩,
    ⟨some "raw", .foreign "Any", true, true⟩, ⟨some "note", .foreign "Note", false, false⟩]
  returns := .string
  description := ""

def sampleDepot : Interface where
  name := "Depot"
  remote := true
  component := true
  methods := [sampleMove, sampleStow, sampleLabel]

theorem binds_in_full_iff_sample :
    ∃ c args, Keyed.Sorted c.params ∧ args.values.length = 4 ∧
      ∃ d, MethodDescriptor.of "Depot" sampleLabel = .ok d ∧ Endpoint.arguments d c = .ok args := by
  have hm : sampleLabel ∈ sampleDepot.methods := by simp [sampleDepot]
  obtain ⟨d, hd, hiff⟩ := binds_in_full_iff (i := sampleDepot) rfl hm rfl
  have hfull : sampleLabel.BindsInFull := ⟨by decide, by decide⟩
  obtain ⟨c, args, hc, ha, hl⟩ := hiff.2 hfull
  exact ⟨c, args, hc, hl, d, hd, ha⟩

/-- The interface passes validation, yet no call binds both parameters of `move`, and none binds the
one of `stow`. -/
theorem sampleDepot_never_binds : validateInterface sampleDepot = .ok () ∧
    ∀ m ∈ [sampleMove, sampleStow], m ∈ sampleDepot.methods ∧ m.exported = true ∧
      ∃ d, MethodDescriptor.of "Depot" m = .ok d ∧
        ∀ c args, Endpoint.arguments d c = .ok args → args.values.length ≠ m.params.length := by
  refine ⟨rfl, List.forall_mem_cons.2 ⟨⟨by simp [sampleDepot], rfl, _, rfl, ?move⟩,
    List.forall_mem_singleton.2 ⟨by simp [sampleDepot], rfl, _, rfl, ?stow⟩⟩⟩
  case move =>
    intro c args h hl
    exact absurd ((Endpoint.length_arguments_eq_iff h).1 hl) (by decide)
  case stow =>
    intro c args h _
    have hd : sampleStow.DescribedBy "Depot" _ := Method.of_eq_ok_iff.1 rfl
    exact hd.hasValues h _ List.mem_cons_self rfl rfl

end Rpc
end Switchboard
