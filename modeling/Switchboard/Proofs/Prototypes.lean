import Mathlib.Data.List.Nodup
import Switchboard.Rpc.Interface

/-!
# Prototypes

A prototype is read from its end. No code is an opening bracket, so the last one
parts the method from the types, whatever the method is called; one character
is one type. What a code keeps of a type is its family: the scalars, text and
unit are families of their own, all enumerations are one, and so are all beans
and all foreign types. Hence the prototypes of an interface tell apart methods
that differ in their name or in the family of a type.
-/

namespace Switchboard.Rpc

/-! ## Codes -/

/-- What the code of a type keeps of it. -/
inductive Family where
  | unit
  | primitive (kind : Scalar)
  | boxed (kind : Scalar)
  | string
  | enumeration
  | bean
  | foreign
  deriving DecidableEq, Repr

namespace Family

def code : Family → Char
  | unit => 'V'
  | primitive k => k.code
  | boxed k => k.code.toLower
  | string => 'T'
  | enumeration => 'E'
  | bean => 'L'
  | foreign => 'O'

def all : List Family :=
  [unit, string, enumeration, bean, foreign] ++ Scalar.all.map primitive ++ Scalar.all.map boxed

theorem mem_all (f : Family) : f ∈ all := by
  cases f with
  | primitive k | boxed k => cases k <;> decide
  | unit | string | enumeration | bean | foreign => decide

theorem nodup_code_all : (all.map code).Nodup := by decide

theorem code_injective : Function.Injective code := fun f g h =>
  List.inj_on_of_nodup_map nodup_code_all f.mem_all g.mem_all h

theorem code_ne_bracket (f : Family) : f.code ≠ '(' := by
  have hall : ∀ g ∈ all, g.code ≠ '(' := by decide
  exact hall f f.mem_all

end Family

namespace ValueType

def family : ValueType → Family
  | unit => .unit
  | primitive k => .primitive k
  | boxed k => .boxed k
  | string => .string
  | enumeration .. => .enumeration
  | bean .. => .bean
  | foreign _ => .foreign

theorem code_eq_code_family (t : ValueType) : t.code = t.family.code := by cases t <;> rfl

/-- The types are equal, or both are enumerations, both beans or both foreign. -/
inductive Akin : ValueType → ValueType → Prop where
  | refl (t : ValueType) : Akin t t
  | enumeration {m n : String} {cs ds : List String} : Akin (.enumeration m cs) (.enumeration n ds)
  | bean {m n : String} {ps qs : List Property} : Akin (.bean m ps) (.bean n qs)
  | foreign {m n : String} : Akin (.foreign m) (.foreign n)

theorem family_eq_iff {s t : ValueType} : s.family = t.family ↔ s.Akin t := by
  constructor
  · intro h
    cases s <;> cases t <;> cases h <;> constructor
  · rintro (_ | _ | _ | _) <;> rfl

theorem code_eq_iff {s t : ValueType} : s.code = t.code ↔ s.Akin t := by
  rw [code_eq_code_family, code_eq_code_family, Family.code_injective.eq_iff, family_eq_iff]

theorem code_ne_bracket (t : ValueType) : t.code ≠ '(' := by
  rw [code_eq_code_family]
  exact t.family.code_ne_bracket

end ValueType

/-! ## Reading from the end -/

/-- Two texts with a mark that does not recur after it are equal if they are so on each side of it. -/
theorem append_mark_inj {mark : Char} {as bs cs ds : List Char} (has : mark ∉ bs) (hcs : mark ∉ ds) :
    as ++ mark :: bs = cs ++ mark :: ds ↔ as = cs ∧ bs = ds := by
  constructor
  case mpr => rintro ⟨rfl, rfl⟩; rfl
  intro h
  -- the text before one mark is what the other one has before it and a rest; a rest holds a mark
  rcases List.append_eq_append_iff.1 h with ⟨rest, hc, hb⟩ | ⟨rest, ha, hd⟩
  · cases rest with
    | nil => simp_all
    | cons c rest =>
      simp only [List.cons_append, List.cons.injEq] at hb
      exact absurd (hb.2 ▸ by simp) has
  · cases rest with
    | nil => simp_all
    | cons c rest =>
      simp only [List.cons_append, List.cons.injEq] at hd
      exact absurd (hd.2 ▸ by simp) hcs

/-- What follows the last opening bracket of a prototype. -/
def signatureCodes (params : List ValueType) (returns : ValueType) : List Char :=
  params.map ValueType.code ++ [')', returns.code]

theorem bracket_notMem_signatureCodes (params : List ValueType) (returns : ValueType) :
    '(' ∉ signatureCodes params returns := by
  simp only [signatureCodes, List.mem_append, List.mem_map, List.mem_cons, List.not_mem_nil, not_or,
    not_exists, not_and, or_false]
  exact ⟨fun t _ => t.code_ne_bracket, by decide, (returns.code_ne_bracket ·.symm)⟩

theorem map_code_eq_iff {ps qs : List ValueType} :
    ps.map ValueType.code = qs.map ValueType.code ↔ List.Forall₂ (fun p q => p.code = q.code) ps qs := by
  rw [← List.forall₂_eq_eq_eq, List.forall₂_map_left_iff, List.forall₂_map_right_iff]

theorem signatureCodes_eq_iff {ps qs : List ValueType} {r s : ValueType} :
    signatureCodes ps r = signatureCodes qs s ↔
      List.Forall₂ (fun p q => p.code = q.code) ps qs ∧ r.code = s.code := by
  rw [signatureCodes, signatureCodes, List.append_eq_append_iff_of_size_eq_right (by simp),
    map_code_eq_iff]
  simp

theorem toList_prototype (declaring method : String) (params : List ValueType) (returns : ValueType) :
    (prototype declaring method params returns).toList =
      declaring.toList ++ '.' :: (method.toList ++ '(' :: signatureCodes params returns) := by
  simp [prototype, signatureCodes]

theorem prototype_eq_iff {declaring m n : String} {ps qs : List ValueType} {r s : ValueType} :
    prototype declaring m ps r = prototype declaring n qs s ↔
      m = n ∧ List.Forall₂ (fun p q => p.code = q.code) ps qs ∧ r.code = s.code := by
  rw [← String.toList_inj, toList_prototype, toList_prototype, List.append_cancel_left_eq,
    List.cons.injEq, and_iff_right rfl,
    append_mark_inj (bracket_notMem_signatureCodes ps r) (bracket_notMem_signatureCodes qs s),
    String.toList_inj, signatureCodes_eq_iff]

/-- Methods of one name whose types are of one family each. -/
structure Method.Alike (m n : Method) : Prop where
  name : m.name = n.name
  params : List.Forall₂ (fun p q => p.type.Akin q.type) m.params n.params
  returns : m.returns.Akin n.returns

theorem Method.prototype_eq_iff {declaring : String} {m n : Method} :
    m.prototype declaring = n.prototype declaring ↔ m.Alike n := by
  rw [Method.prototype, Method.prototype, Rpc.prototype_eq_iff, List.forall₂_map_left_iff,
    List.forall₂_map_right_iff]
  simp only [ValueType.code_eq_iff]
  exact ⟨fun ⟨hname, hparams, hreturns⟩ => ⟨hname, hparams, hreturns⟩,
    fun h => ⟨h.name, h.params, h.returns⟩⟩

/--
Prototypes for one declaring name are equal exactly when the methods' names are
and the codes of their types, one by one; types have one code exactly when they
are akin. So the methods of an interface that share a prototype are alike.
-/
theorem prototypes_tell_apart :
    (∀ (declaring m n : String) (ps qs : List ValueType) (r s : ValueType),
      prototype declaring m ps r = prototype declaring n qs s ↔
        m = n ∧ List.Forall₂ (fun p q => p.code = q.code) ps qs ∧ r.code = s.code) ∧
    (∀ s t : ValueType, s.code = t.code ↔ s.Akin t) ∧
    (∀ (i : Interface) (m n : Method), m.prototype i.name = n.prototype i.name ↔ m.Alike n) :=
  ⟨fun _ _ _ _ _ _ _ => prototype_eq_iff, fun _ _ => ValueType.code_eq_iff,
    fun _ _ _ => Method.prototype_eq_iff⟩

-- a name may hold brackets of its own: only what follows the last one is read
example : prototype "a" "f(" [.primitive .int] .unit = "a.f((I)V" ∧
    prototype "a" "f" [.boxed .int] .unit = "a.f(i)V" := by decide

end Switchboard.Rpc
