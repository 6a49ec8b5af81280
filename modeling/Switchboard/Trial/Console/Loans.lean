import Switchboard.Container.Instances
import Switchboard.Trial.Console.Basic

/-!
# Commands on instances

Borrowing instances from registrations and giving them back, to the registration
they came from, to another one, or not at all.
-/

namespace Switchboard.Trial

inductive LoanCommand where
  | create (label registration : String)
  | same (first second : String)
  | release (label : String)
  | releaseTo (label registration : String)
  | forget (label : String)
  | lease (registration : String)
  | preload (registration : String)
  | teardown (registration : String)

namespace Console

def viewLoan (c : Console) (r : RegistrationId) : LoanView :=
  let g := c.store.registration r
  ⟨g.instancing.sharesInstance, g.active⟩

/-- Drops the instance of a label without giving its place back. -/
def forget (c : Console) (label : String) : Console :=
  match Keyed.find? label c.loans with
  | some l => { c with loans := Keyed.erase label c.loans }.change (·.drop l.i)
  | none => c

def bindLoan (c : Console) (label : String) (l : Loan) : Console :=
  let c := c.forget label
  { c with loans := Keyed.insert label l c.loans }

/-- Gives the instance of a label back to a registration. -/
def giveBack (c : Console) (label : String) (l : Loan) (r : RegistrationId) : Console × Answer :=
  let c := { c with loans := Keyed.erase label c.loans }.change (·.giveBack r l.i)
  (c.drain, .count (c.store.registration r).active)

def loan (c : Console) : LoanCommand → Console × Answer
  | .create label registration => c.withRegistration registration fun r =>
    c.perform (Container.createHandler r) fun c outcome =>
      match outcome with
      | .error f => (c, .refused f)
      | .ok i => (c.bindLoan label ⟨i, r⟩, .lent (c.viewLoan r))
  | .same first second => c.look c.loans first fun a => c.look c.loans second fun b =>
    (c, .truth (c.store.isSame a.i b.i))
  | .release label => c.look c.loans label fun l => c.giveBack label l l.registration
  | .releaseTo label registration => c.look c.loans label fun l =>
    c.withRegistration registration fun r => c.giveBack label l r
  | .forget label => (c.forget label, .truth (Keyed.find? label c.loans).isSome)
  | .lease registration => c.withRegistration registration fun r =>
    c.perform (Container.createHandler r) fun c outcome =>
      match outcome with
      | .error f => (c, .leased (.error f) (c.store.registration r).active)
      | .ok i =>
        let after := c.change (·.giveBack r i)
        (after.rouse, .leased (.ok (c.viewLoan r)) (after.store.registration r).active)
  | .preload registration => c.withRegistration registration fun r =>
    c.perform (Container.preload r) fun c outcome =>
      match outcome with
      | .error f => (c, .refused f)
      | .ok () => (c, .ok)
  | .teardown registration => c.withRegistration registration fun r =>
    c.start [] (do Container.teardown r; return .toreDown)

end Console
end Switchboard.Trial
