import Switchboard.Topology.Basic

/-!
# Topologies as records

How a topology is written to JSON and read from it. Writing gives every field;
reading takes the defaults for the fields that are left out and ignores fields
it does not know.
-/

namespace Switchboard.Topology

/-- Parameters are an object of texts. -/
def params? (v : Json) : Option Params := v.texts?.map .ofList

/-! ## Handlers -/

def Handler.fieldNames : List String :=
  ["name", "class", "params", "load_on_startup", "unavailable", "hook"]

def Handler.toJson (h : Handler) : Json :=
  .ofFields [("name", .string h.name), ("class", .string h.className), ("params", .ofTextFields h.params.entries),
    ("load_on_startup", .bool h.loadOnStartup), ("unavailable", .bool h.unavailable),
    ("hook", .ofText? h.hook)]

def Handler.ofJson? (surplus : Json.Surplus) (v : Json) : Option Handler := do
  let fields ← v.record? surplus fieldNames
  let name ← Json.required Json.text? "name" fields
  let className ← Json.required Json.text? "class" fields
  let params ← Json.defaulted .empty params? "params" fields
  let loadOnStartup ← Json.defaulted false Json.bool? "load_on_startup" fields
  let unavailable ← Json.defaulted false Json.bool? "unavailable" fields
  let hook ← Json.defaulted none Json.optionalText? "hook" fields
  return ⟨name, className, params, loadOnStartup, unavailable, hook⟩

/-! ## Contexts -/

def Context.fieldNames : List String :=
  ["name", "request_type", "response_type", "default_handler", "handler"]

def Context.toJson (c : Context) : Json :=
  .ofFields [("name", .string c.name), ("request_type", .string c.requestType),
    ("response_type", .string c.responseType), ("default_handler", .ofText? c.defaultHandler),
    ("handler", .array (c.handlers.map Handler.toJson))]

def Context.ofJson? (surplus : Json.Surplus) (v : Json) : Option Context := do
  let fields ← v.record? surplus fieldNames
  let name ← Json.required Json.text? "name" fields
  let requestType ← Json.required Json.text? "request_type" fields
  let responseType ← Json.required Json.text? "response_type" fields
  let defaultHandler ← Json.defaulted none Json.optionalText? "default_handler" fields
  let handlers ← Json.defaulted [] (Json.list? (Handler.ofJson? surplus)) "handler" fields
  return ⟨name, requestType, responseType, defaultHandler, handlers⟩

/-! ## Services, servers and domains -/

def Service.fieldNames : List String := ["name", "context"]

def Service.toJson (s : Service) : Json :=
  .ofFields [("name", .string s.name), ("context", .array (s.contexts.map Context.toJson))]

def Service.ofJson? (surplus : Json.Surplus) (v : Json) : Option Service := do
  let fields ← v.record? surplus fieldNames
  let name ← Json.required Json.text? "name" fields
  let contexts ← Json.defaulted [] (Json.list? (Context.ofJson? surplus)) "context" fields
  return ⟨name, contexts⟩

def Server.fieldNames : List String := ["name", "service"]

def Server.toJson (s : Server) : Json :=
  .ofFields [("name", .string s.name), ("service", .array (s.services.map Service.toJson))]

def Server.ofJson? (surplus : Json.Surplus) (v : Json) : Option Server := do
  let fields ← v.record? surplus fieldNames
  let name ← Json.required Json.text? "name" fields
  let services ← Json.defaulted [] (Json.list? (Service.ofJson? surplus)) "service" fields
  return ⟨name, services⟩

def Domain.fieldNames : List String := ["name", "config", "server"]

def Domain.toJson (d : Domain) : Json :=
  .ofFields [("name", .string d.name), ("config", d.settings.toJson),
    ("server", .array (d.servers.map Server.toJson))]

def Domain.ofJson? (surplus : Json.Surplus) (v : Json) : Option Domain := do
  let fields ← v.record? surplus fieldNames
  let name ← Json.required Json.text? "name" fields
  let settings ← Json.defaulted {} (Settings.ofJson? surplus) "config" fields
  let servers ← Json.defaulted [] (Json.list? (Server.ofJson? surplus)) "server" fields
  return ⟨name, settings, servers⟩

end Switchboard.Topology
