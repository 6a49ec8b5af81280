import Switchboard.Toml.Document
import Switchboard.Topology.Record

/-!
# Topologies from TOML

A TOML text that describes a topology, or container settings on their own. The
settings of a topology are validated as they are read. An array that stands for
a record may have items to spare.
-/

namespace Switchboard

/-- Why a text gives no topology. -/
inductive Topology.DocumentFault where
  | unreadable
  | settings (fault : SettingsFault)
  deriving DecidableEq, Repr

def Topology.Domain.ofToml (text : String) : Except Topology.DocumentFault Topology.Domain :=
  match (Toml.Document.ofText? text).bind fun v => ofJson? .ignored v.toJson with
  | none => .error .unreadable
  | some d =>
    match d.settings.validate with
    | .error f => .error (.settings f)
    | .ok () => .ok d

def Settings.ofToml? (text : String) : Option Settings :=
  (Toml.Document.ofText? text).bind fun v => ofJson? .ignored v.toJson

end Switchboard
