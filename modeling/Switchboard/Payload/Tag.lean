/-!
# Type tags

A tag names the type of a payload and may extend another tag. Tags are equal
when their names are. A declared tag takes every payload whose tag, or one of
the tags it extends, has the declared name; `any` takes everything.
-/

namespace Switchboard

inductive TypeTag where
  | root (name : String)
  | extending (name : String) (parent : TypeTag)
  deriving DecidableEq, Repr, Inhabited

namespace TypeTag

def name : TypeTag → String
  | root n | extending n _ => n

def parent? : TypeTag → Option TypeTag
  | root _ => none
  | extending _ p => some p

/-- The tag and the tags it extends, nearest first. -/
def ancestry : TypeTag → List TypeTag
  | root n => [root n]
  | extending n p => extending n p :: p.ancestry

def any : TypeTag := root "*"

def same (a b : TypeTag) : Bool := a.name = b.name

/-- Whether a payload tagged `other` may stand where `self` is declared. -/
def isAssignableFrom (self other : TypeTag) : Bool :=
  self.name = any.name || other.ancestry.any fun t => t.name = self.name

theorem mem_ancestry_self (t : TypeTag) : t ∈ t.ancestry := by
  cases t <;> simp [ancestry]

theorem isAssignableFrom_self (t : TypeTag) : t.isAssignableFrom t = true := by
  rw [isAssignableFrom, Bool.or_eq_true]
  exact .inr (List.any_eq_true.2 ⟨t, t.mem_ancestry_self, by simp⟩)

/-- What a tag extends is the end of its own ancestry. -/
theorem ancestry_suffix {a b : TypeTag} (h : a ∈ b.ancestry) : a.ancestry <:+ b.ancestry := by
  induction b with
  | root n =>
    obtain rfl := List.mem_singleton.1 h
    exact List.suffix_rfl
  | extending n p ih =>
    rcases List.mem_cons.1 h with rfl | hp
    · exact List.suffix_rfl
    · exact (ih hp).trans (List.suffix_cons _ _)

/-- A tag stands wherever one that it extends may stand. -/
theorem isAssignableFrom_of_mem_ancestry {t a b : TypeTag} (h : a ∈ b.ancestry)
    (ha : t.isAssignableFrom a = true) : t.isAssignableFrom b = true := by
  unfold isAssignableFrom at ha ⊢
  rw [Bool.or_eq_true, List.any_eq_true] at ha ⊢
  refine ha.imp_right ?_
  rintro ⟨u, hu, hn⟩
  exact ⟨u, (ancestry_suffix h).mem hu, hn⟩

theorem any_isAssignableFrom (t : TypeTag) : any.isAssignableFrom t = true := by
  simp [isAssignableFrom]

end TypeTag
end Switchboard
