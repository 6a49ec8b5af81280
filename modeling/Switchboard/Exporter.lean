/-!
# Exporters

A process records its metrics with one recorder at most. The exporter that is
installed first owns it and renders what is recorded; installing another one
succeeds, but that one stays without a recorder and renders nothing.
-/

namespace Switchboard

abbrev ExporterId := Nat

/-- The recorder of a process, with the exporter that owns it. -/
structure Recorder where
  owner : Option ExporterId := none
  deriving DecidableEq, Repr

namespace Recorder

/-- Whether an exporter owns the recorder, which is when it renders something. -/
def isInstalled (r : Recorder) (e : ExporterId) : Bool := r.owner = some e

/-- The first one to be installed stays the owner. -/
def install (r : Recorder) (e : ExporterId) : Recorder := ⟨r.owner.or (some e)⟩

end Recorder
end Switchboard
