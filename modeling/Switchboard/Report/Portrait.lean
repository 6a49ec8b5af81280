import Switchboard.Report.Fault
import Switchboard.Trial.Portrait

/-!
# Reports of portraits and events

Settings, portraits and heard events as JSON records.
-/

namespace Switchboard

def Settings.report (s : Settings) : Json :=
  .ofFields [("retries", .ofNat s.pollRetries), ("interval_ms", .ofNat s.pollInterval),
    ("interval", .ofNat s.pollInterval), ("restricted_param", .string s.restrictedParam)]

/-! ## Portraits -/

def Trial.RegistrationView.report (v : Trial.RegistrationView) : Json :=
  let g := v.registration
  .ofFields [("name", .string g.name), ("class", .string v.className), ("instancing", .string g.instancing.name),
    ("context", .ofText? g.context), ("config_context", .string v.config.context),
    ("config_handler", .string v.config.handler), ("config_params", .ofTextFields v.config.params.entries),
    ("params", .ofTextFields g.params.entries), ("unavailable", .bool g.unavailable),
    ("load_on_startup", .bool g.loadOnStartup), ("hook", .bool v.hasHook),
    ("restricted", .bool (g.isRestricted ({} : Settings).restrictedParam)),
    ("active", .ofNat g.active), ("shared", .bool g.shared.isSome)]

def Trial.Role.fields (name : String) : Trial.Role → List (String × Json)
  | .domain s => [("config", s.report), ("self_name", .string name)]
  | .owned owner => [("owner", .ofText? owner)]
  | .context owner request response handler =>
    [("owner", .ofText? owner), ("types", .ofTexts [request.name, response.name]),
      ("default_handler", .ofText? handler)]

mutual
def Trial.Portrait.report : Trial.Portrait → Json
  | .registration v => v.report
  | .component v children => .ofFields ([("name", .string v.name), ("state", .string v.state.name),
      ("listeners", .ofNat v.listeners), ("names", .ofTexts v.names),
      ("children", .array (Trial.Portrait.reports children))] ++ Trial.Role.fields v.name v.role)

def Trial.Portrait.reports : List Trial.Portrait → List Json
  | [] => []
  | p :: ps => p.report :: Trial.Portrait.reports ps
end

/-! ## Events -/

def Lifecycle.Event.entered? : Lifecycle.Event → Option Json
  | .moved _ _ s => some (.string s.name)
  | .owned .. => none

def Lifecycle.Event.ownerChange? : Lifecycle.Event → Option Json
  | .owned _ previous current => some (.array [.ofText? previous, .ofText? current])
  | .moved .. => none

/-- The events in words, and apart from that the states entered and the owners before and after. -/
def reportEvents (es : List Lifecycle.Event) : Json :=
  .ofFields [("events", .ofTexts (es.map (·.text))), ("states", .array (es.filterMap Lifecycle.Event.entered?)),
    ("owners", .array (es.filterMap Lifecycle.Event.ownerChange?))]

end Switchboard
