import Switchboard.Number.Width

/-!
# Value types

The types a remote method can name. Primitive scalars never hold null, their
boxed forms do; a bean is an object with described properties; a foreign type
is known by name only. `code` is the one-character code that prototypes are
made of, and `accepts` says which declared type fits which parameter type.
-/

namespace Switchboard.Rpc

inductive Scalar where
  | boolean | byte | short | int | long | float | double | char
  deriving DecidableEq, Repr

namespace Scalar

def all : List Scalar := [boolean, byte, short, int, long, float, double, char]

def name : Scalar → String
  | boolean => "boolean"
  | byte => "byte"
  | short => "short"
  | int => "int"
  | long => "long"
  | float => "float"
  | double => "double"
  | char => "char"

def boxedName : Scalar → String
  | boolean => "Boolean"
  | byte => "Byte"
  | short => "Short"
  | int => "Integer"
  | long => "Long"
  | float => "Float"
  | double => "Double"
  | char => "Character"

def code : Scalar → Char
  | boolean => 'Z'
  | byte => 'B'
  | short => 'S'
  | int => 'I'
  | long => 'J'
  | float => 'F'
  | double => 'D'
  | char => 'C'

/-- The least and the greatest value of an integer scalar. -/
def range? : Scalar → Option (Int × Int)
  | byte => some (-128, 127)
  | short => some (-32768, 32767)
  | int => some (-2147483648, 2147483647)
  | long => some (Width.leastLong, Width.greatestLong)
  | _ => none

end Scalar

mutual
inductive ValueType where
  | unit
  | primitive (kind : Scalar)
  | boxed (kind : Scalar)
  | string
  | enumeration (name : String) (constants : List String)
  | bean (name : String) (properties : List Property)
  | foreign (name : String)

structure Property where
  name : String
  type : ValueType
  writable : Bool
end

instance : Inhabited ValueType := ⟨.unit⟩

/-- What holds of a bean when it holds of the types of its properties, holds of every type. -/
@[elab_as_elim]
theorem ValueType.induction {P : ValueType → Prop} (unit : P .unit)
    (primitive : ∀ k, P (.primitive k)) (boxed : ∀ k, P (.boxed k)) (string : P .string)
    (enumeration : ∀ n cs, P (.enumeration n cs))
    (bean : ∀ n ps, (∀ p ∈ ps, P p.type) → P (.bean n ps)) (foreign : ∀ n, P (.foreign n))
    (t : ValueType) : P t := by
  refine @ValueType.rec P (fun p => P p.type) (fun ps => ∀ p ∈ ps, P p.type) unit primitive boxed
    string enumeration bean foreign (fun _ _ _ h => h) ?nil ?cons t
  case nil => simp
  case cons => exact fun p ps hp hps => List.forall_mem_cons.2 ⟨hp, hps⟩

/-! ## Equality -/

mutual
def ValueType.decEq : (a b : ValueType) → Decidable (a = b)
  | .unit, .unit | .string, .string => isTrue rfl
  | .primitive j, .primitive k => decidable_of_iff (j = k) (by simp)
  | .boxed j, .boxed k => decidable_of_iff (j = k) (by simp)
  | .enumeration m cs, .enumeration n ds => decidable_of_iff (m = n ∧ cs = ds) (by simp)
  | .foreign m, .foreign n => decidable_of_iff (m = n) (by simp)
  | .bean m ps, .bean n qs =>
    have := Property.decEqList ps qs
    decidable_of_iff (m = n ∧ ps = qs) (by simp)
  | .unit, .primitive _ | .unit, .boxed _ | .unit, .string | .unit, .enumeration .. | .unit, .bean ..
  | .unit, .foreign _ | .primitive _, .unit | .primitive _, .boxed _ | .primitive _, .string
  | .primitive _, .enumeration .. | .primitive _, .bean .. | .primitive _, .foreign _ | .boxed _, .unit
  | .boxed _, .primitive _ | .boxed _, .string | .boxed _, .enumeration .. | .boxed _, .bean ..
  | .boxed _, .foreign _ | .string, .unit | .string, .primitive _ | .string, .boxed _
  | .string, .enumeration .. | .string, .bean .. | .string, .foreign _ | .enumeration .., .unit
  | .enumeration .., .primitive _ | .enumeration .., .boxed _ | .enumeration .., .string
  | .enumeration .., .bean .. | .enumeration .., .foreign _ | .bean .., .unit | .bean .., .primitive _
  | .bean .., .boxed _ | .bean .., .string | .bean .., .enumeration .. | .bean .., .foreign _
  | .foreign _, .unit | .foreign _, .primitive _ | .foreign _, .boxed _ | .foreign _, .string
  | .foreign _, .enumeration .. | .foreign _, .bean .. => isFalse (fun e => nomatch e)

def Property.decEqList : (ps qs : List Property) → Decidable (ps = qs)
  | [], [] => isTrue rfl
  | ⟨m, s, v⟩ :: ps, ⟨n, t, w⟩ :: qs =>
    have := ValueType.decEq s t
    have := Property.decEqList ps qs
    decidable_of_iff ((m = n ∧ s = t ∧ v = w) ∧ ps = qs) (by simp)
  | [], _ :: _ | _ :: _, [] => isFalse (fun e => nomatch e)
end

instance : DecidableEq ValueType := ValueType.decEq

namespace ValueType

def name : ValueType → String
  | unit => "void"
  | primitive k => k.name
  | boxed k => k.boxedName
  | string => "String"
  | enumeration n _ | bean n _ | foreign n => n

/-- Boxed scalars have the lower-case letter of their primitive. -/
def code : ValueType → Char
  | unit => 'V'
  | primitive k => k.code
  | boxed k => k.code.toLower
  | string => 'T'
  | enumeration .. => 'E'
  | bean .. => 'L'
  | foreign _ => 'O'

def isPrimitive : ValueType → Bool
  | primitive _ => true
  | _ => false

def isUnit : ValueType → Bool
  | unit => true
  | _ => false

def isForeign : ValueType → Bool
  | foreign _ => true
  | _ => false

/-- The form that also admits null. -/
def nullable : ValueType → ValueType
  | primitive k => boxed k
  | t => t

/-- The type a list of the given items describes itself as. -/
def listOf (item : ValueType) : ValueType := foreign ("list<" ++ item.name ++ ">")

/--
Whether a value of the second type may be passed to a parameter of the first: the
types are equal, a boxed scalar takes its primitive, and a foreign type takes
everything but unit.
-/
def accepts (formal actual : ValueType) : Bool :=
  formal = actual ||
    match formal, actual with
    | boxed j, primitive k => j = k
    | foreign _, t => !t.isUnit
    | _, _ => false

end ValueType
end Switchboard.Rpc
