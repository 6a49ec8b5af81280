import Switchboard.Container.Fault

/-!
# Ownership slots

A child remembers its owner by name and number without keeping it alive. An
owner that is gone counts as none, so its slot can be claimed again; a live
owner is displaced only by its own release. Every change of owner is announced to
the child's listeners.
-/

namespace Switchboard.Container

open Lifecycle (Board State)

structure Owner where
  name : String
  parent : Nat
  deriving DecidableEq, Repr

abbrev OwnerSlot := Option Owner

namespace OwnerSlot

/-- The owner, while it is alive. -/
def live (alive : Nat → Bool) (slot : OwnerSlot) : Option Owner := slot.filter fun o => alive o.parent

def isOwnedBy (slot : OwnerSlot) (parent : Nat) : Bool := slot.any fun o => o.parent = parent

/-- No claim succeeds while the child is on its way out. -/
def isDoomed (s : State) : Bool := s matches .destroying | .destroyed

/-- The slot after a claim, or `none` when the claimant owns the child already. -/
def claim (alive : Nat → Bool) (state : State) (claimant : Owner) (slot : OwnerSlot) :
    Except Refusal (Option OwnerSlot) :=
  if isDoomed state then .error (.inState state)
  else if slot.isOwnedBy claimant.parent then .ok none
  else
    match slot.live alive with
    | some o => .error (.ownedBy o.name)
    | none => .ok (some (some claimant))

/-- The slot after a release and the name it held, or `none` when the parent is not the owner. -/
def release (parent : Nat) (slot : OwnerSlot) : Option (OwnerSlot × String) :=
  (slot.filter fun o => o.parent = parent).map fun o => (none, o.name)

/-- Claims a child: its slot and the board once its listeners have heard of that, or `none` when the
claimant owns the child already. -/
def claimOn (alive : Nat → Bool) (b : Board) (child : ComponentId) (claimant : Owner) (slot : OwnerSlot) :
    Except Fault (Option (OwnerSlot × Board)) :=
  match slot.claim alive (b.state child) claimant with
  | .error reason => .error (.ownership (b.name child) claimant.name reason)
  | .ok none => .ok none
  | .ok (some slot) => .ok (some (slot, b.announceOwner child none (some claimant.name)))

/-- Gives a child up: its slot and the board, or `none` when the parent does not own the child. -/
def releaseOn (b : Board) (child : ComponentId) (parent : Nat) (slot : OwnerSlot) :
    Option (OwnerSlot × Board) :=
  (slot.release parent).map fun (slot, name) => (slot, b.announceOwner child (some name) none)

/-! ## What the owner's number decides -/

variable {slot : OwnerSlot} {p q : Nat}

theorem isOwnedBy_iff : slot.isOwnedBy p = true ↔ ∃ o, slot = some o ∧ o.parent = p := by
  cases slot <;> simp [isOwnedBy]

theorem release_of_owned (h : slot.isOwnedBy p = true) :
    ∃ name, slot.release p = some (none, name) := by
  obtain ⟨o, rfl, rfl⟩ := isOwnedBy_iff.1 h
  exact ⟨o.name, by simp [release, Option.filter]⟩

theorem release_of_not_owned (h : ¬ slot.isOwnedBy p = true) : slot.release p = none := by
  cases slot with
  | none => rfl
  | some o =>
    have hp : o.parent ≠ p := fun hp => h (isOwnedBy_iff.2 ⟨o, rfl, hp⟩)
    simp [release, Option.filter, hp]

theorem live_eq_some_iff {alive : Nat → Bool} {o : Owner} :
    slot.live alive = some o ↔ slot = some o ∧ alive o.parent = true := Option.filter_eq_some_iff

/-- A claim that succeeds finds the slot its own already, or with no live owner. -/
theorem claim_ok {alive : Nat → Bool} {state : State} {claimant : Owner} {new : Option OwnerSlot}
    (h : slot.claim alive state claimant = .ok new) :
    new = none ∧ slot.isOwnedBy claimant.parent = true ∨
      new = some (some claimant) ∧ slot.live alive = none := by
  unfold claim at h
  split at h
  · cases h
  · split at h
    next ho => exact .inl ⟨(Except.ok.inj h).symm, ho⟩
    next =>
      cases hl : slot.live alive with
      | some o => rw [hl] at h; cases h
      | none =>
        rw [hl] at h
        exact .inr ⟨(Except.ok.inj h).symm, rfl⟩

end OwnerSlot
end Switchboard.Container
