import Switchboard.Container.Custody

/-!
# Custodies to try

The custody of one child under the names of the trials.
-/

namespace Switchboard.Trial

abbrev Custody := Container.Custody

abbrev CustodyStep := Container.CustodyStep

abbrev CustodyAnswer := Container.CustodyAnswer

/-- The custody of a child that nobody has claimed yet, with one listener. -/
def Custody.new (child : String) : Custody := Container.Custody.new child

end Switchboard.Trial
