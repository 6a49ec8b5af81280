import Switchboard.Proofs.Canonical

/-!
# What influences a conversion

A bean is filled from the keys of its writable properties and from nothing else.
`Alike t v v'` holds of two values that differ, at any depth, only under keys that no
writable property names; they convert to the type alike, with the same value or the
same fault. So what a caller adds under a read-only or an undeclared key is of no
consequence.
-/

namespace Switchboard.Rpc

mutual
/-- The same value, or for a bean two objects that agree on what the writable properties name. -/
def Alike : ValueType → Json → Json → Prop
  | .bean _ ps, v, v' => v = v' ∨ ∃ source source', v = .object source ∧ v' = .object source' ∧
      AlikeFields source source' ps
  | _, v, v' => v = v'

/-- Under the name of each writable property neither object has a value, or both have values alike. -/
def AlikeFields (source source' : List (String × Json)) : List Property → Prop
  | [] => True
  | ⟨n, t, writable⟩ :: ps =>
    (writable = true → (Keyed.find? n source = none ∧ Keyed.find? n source' = none) ∨
      ∃ v v', Keyed.find? n source = some v ∧ Keyed.find? n source' = some v' ∧ Alike t v v') ∧
    AlikeFields source source' ps
end

variable {n key : String} {t : ValueType} {p : Property} {ps : List Property} {v v' x : Json}
  {source source' : List (String × Json)}

/-- What `AlikeFields` asks of one property. -/
def AlikeAt (source source' : List (String × Json)) (p : Property) : Prop :=
  (Keyed.find? p.name source = none ∧ Keyed.find? p.name source' = none) ∨
    ∃ v v', Keyed.find? p.name source = some v ∧ Keyed.find? p.name source' = some v' ∧
      Alike p.type v v'

theorem alikeFields_iff : AlikeFields source source' ps ↔
    ∀ p ∈ ps, p.writable = true → AlikeAt source source' p := by
  induction ps with
  | nil => simp [AlikeFields]
  | cons p ps ih =>
    obtain ⟨n, t, writable⟩ := p
    rw [AlikeFields, ih, List.forall_mem_cons]
    rfl

theorem Alike.refl (t : ValueType) (v : Json) : Alike t v v := by
  cases t with
  | bean n ps => exact .inl rfl
  | _ => rfl

theorem AlikeAt.refl (source : List (String × Json)) (p : Property) : AlikeAt source source p := by
  cases h : Keyed.find? p.name source with
  | none => exact .inl ⟨h, h⟩
  | some v => exact .inr ⟨v, v, h, h, .refl p.type v⟩

/-- A key that no writable property names may be given any value. -/
theorem alike_insert (h : ∀ p ∈ ps, p.writable = true → p.name ≠ key) (x : Json) :
    Alike (.bean n ps) (.object source) (.object (Keyed.insert key x source)) := by
  refine .inr ⟨source, _, rfl, rfl, alikeFields_iff.2 fun p hp hw => ?_⟩
  have hfind : Keyed.find? p.name (Keyed.insert key x source) = Keyed.find? p.name source := by
    rw [Keyed.find?_insert, if_neg fun he => h p hp hw he.symm]
  rw [AlikeAt, hfind]
  exact AlikeAt.refl source p

/-! ## Filling from sources that are alike -/

theorem held_eq_of_alikeAt (ih : ∀ {v v'}, Alike p.type v v' → convert p.type v = convert p.type v')
    (h : AlikeAt source source' p) : held source p = held source' p := by
  unfold held
  obtain ⟨hn, hn'⟩ | ⟨v, v', hv, hv', ha⟩ := h
  · rw [hn, hn']
  · rw [hv, hv']
    simp only [ih ha]

/-- Only what the writable properties hold goes into a bean. -/
theorem fill_congr (h : ∀ p ∈ ps, p.writable = true → held source p = held source' p)
    (acc : List (String × Json)) : fill source ps acc = fill source' ps acc := by
  induction ps generalizing acc with
  | nil => rfl
  | cons p ps ih =>
    obtain ⟨hp, hps⟩ := List.forall_mem_cons.1 h
    obtain ⟨n, t, writable⟩ := p
    cases writable with
    | false => exact ih hps acc
    | true =>
      show fill source ps (Keyed.insert n (held source ⟨n, t, true⟩) acc) =
        fill source' ps (Keyed.insert n (held source' ⟨n, t, true⟩) acc)
      rw [hp rfl]
      exact ih hps _

/-- Read-only and undeclared input has no influence on a conversion: values that are alike for the
type convert alike, whether that goes well or not. -/
theorem convert_eq_of_alike (t : ValueType) (h : Alike t v v') : convert t v = convert t v' := by
  induction t using ValueType.induction generalizing v v' with
  | bean n ps ih =>
    obtain rfl | ⟨source, source', rfl, rfl, hf⟩ := h
    · rfl
    · have hfill : fill source ps [] = fill source' ps [] :=
        fill_congr (fun p hp hw => held_eq_of_alikeAt (ih p hp) (alikeFields_iff.1 hf p hp hw)) []
      rw [convert, convert, hfill]
  | unit => exact congrArg _ h
  | primitive k => exact congrArg _ h
  | boxed k => exact congrArg _ h
  | string => exact congrArg _ h
  | enumeration n cs => exact congrArg _ h
  | foreign n => exact congrArg _ h

/-- What is asked of a person, and no more. -/
def sampleAsked : List (String × Json) := [("address", .object [("zip", .int 7)]), ("age", .int 36)]

/-- The same with a read-only property, a key of the caller's own, and another one in the address. -/
def sampleLaced : List (String × Json) :=
  [("address", .object [("admin", .bool true), ("zip", .int 7)]), ("age", .int 36), ("id", .int 1),
    ("role", .string "root")]

theorem convert_eq_of_alike_sample :
    Alike samplePerson (.object sampleAsked) (.object sampleLaced) ∧
    convert samplePerson (.object sampleAsked) = convert samplePerson (.object sampleLaced) ∧
    convert samplePerson (.object sampleAsked) =
      .ok (.object [("address", .object [("zip", .int 7)]), ("age", .int 36), ("name", .null)]) := by
  have haddress : Alike (.bean "Address" [⟨"zip", .primitive .short, true⟩])
      (.object [("zip", .int 7)]) (.object (Keyed.insert "admin" (.bool true) [("zip", .int 7)])) :=
    alike_insert (by simp) (.bool true)
  have h : Alike samplePerson (.object sampleAsked) (.object sampleLaced) := by
    refine .inr ⟨_, _, rfl, rfl, alikeFields_iff.2 fun p hp hw => ?_⟩
    simp only [List.mem_cons, List.not_mem_nil, or_false] at hp
    rcases hp with rfl | rfl | rfl | rfl | rfl
    · exact .inl ⟨rfl, rfl⟩
    · cases hw
    · exact .inr ⟨.int 36, .int 36, rfl, rfl, rfl⟩
    · exact .inl ⟨rfl, rfl⟩
    · exact .inr ⟨_, _, rfl, rfl, haddress⟩
  exact ⟨h, convert_eq_of_alike samplePerson h, rfl⟩

end Switchboard.Rpc
