import Switchboard.Params
import Switchboard.Settings

/-!
# Topologies

The description of a whole tree: a domain with its settings, its servers, their
services, their contexts in order of precedence, and the handlers of each
context. Classes, payload types and hooks are named, not given.
-/

namespace Switchboard.Topology

structure Handler where
  name : String
  className : String
  params : Params := .empty
  loadOnStartup : Bool := false
  unavailable : Bool := false
  hook : Option String := none
  deriving DecidableEq

structure Context where
  name : String
  requestType : String
  responseType : String
  defaultHandler : Option String := none
  handlers : List Handler := []
  deriving DecidableEq

structure Service where
  name : String
  contexts : List Context := []
  deriving DecidableEq

structure Server where
  name : String
  services : List Service := []
  deriving DecidableEq

structure Domain where
  name : String
  settings : Settings := {}
  servers : List Server := []
  deriving DecidableEq

end Switchboard.Topology
