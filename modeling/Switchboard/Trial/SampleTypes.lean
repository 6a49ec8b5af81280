import Switchboard.Rpc.ValueType

/-!
# Sample types

Beans and constants to try the call engine with: a ticket form, a generic page
of items and one bean with a property of every kind.
-/

namespace Switchboard.Trial

open Rpc

def Sample.priority : ValueType := .enumeration "Priority" ["Low", "Normal", "URGENT"]

def Sample.nothing : ValueType := .enumeration "void enum" []

def Sample.assignee : ValueType := .bean "Assignee" [⟨"login", .string, true⟩, ⟨"team", .string, true⟩]

def Sample.ticket : ValueType :=
  .bean "Ticket" [⟨"title", .string, true⟩, ⟨"priority", Sample.priority, true⟩,
    ⟨"estimate", .primitive .int, true⟩, ⟨"assignedTo", Sample.assignee, true⟩,
    ⟨"id", .boxed .long, false⟩]

def Sample.page (item : ValueType) : ValueType :=
  .bean "Page" [⟨"items", item.nullable, true⟩, ⟨"total", .primitive .long, true⟩]

def Sample.everything : ValueType :=
  .bean "Everything" [⟨"z", .primitive .boolean, true⟩, ⟨"b", .primitive .byte, true⟩,
    ⟨"s", .primitive .short, true⟩, ⟨"i", .primitive .int, true⟩, ⟨"j", .primitive .long, true⟩,
    ⟨"f", .primitive .float, true⟩, ⟨"d", .primitive .double, true⟩, ⟨"c", .primitive .char, true⟩,
    ⟨"u", .unit, true⟩, ⟨"list", .listOf (.boxed .int), true⟩, ⟨"raw", .foreign "json", false⟩,
    ⟨"nested", Sample.page (Sample.page .string), true⟩]

/-- The types that are called by a name, a question mark for the nullable form. -/
def Sample.named : List (String × ValueType) :=
  Scalar.all.map (fun k => (k.name, .primitive k)) ++ Scalar.all.map (fun k => (k.boxedName, .boxed k)) ++
    [("unit", .unit), ("String", .string), ("String?", .string), ("json", .foreign "json"),
      ("list<int>", .listOf (.primitive .int)), ("list<Integer>", .listOf (.boxed .int)),
      ("list<String>", .listOf .string), ("list<void>", .listOf .unit),
      ("list<list<boolean>>", .listOf (.listOf (.primitive .boolean))),
      ("list<json>?", .listOf (.foreign "json"))]

end Switchboard.Trial
