import Switchboard.Toml.Value

/-!
# TOML tables under construction

A document names its tables piece by piece. A table has the `Origin` that says
who may still add to it: a header may complete a table that so far was only
implied by the headers below it, a dotted key may extend tables that dotted
keys made, and nothing is defined twice. A header that passes through an array
of tables means the last of them.
-/

namespace Switchboard.Toml

inductive Origin where
  /-- Named by a header of its own. -/
  | header
  /-- Passed through on the way to another header. -/
  | implied
  /-- Made by a dotted key. -/
  | dotted
  deriving DecidableEq, Repr

inductive Node where
  | leaf (value : Value)
  | table (origin : Origin) (fields : List (String × Node))
  | tables (elements : List (List (String × Node)))

abbrev Fields := List (String × Node)

namespace Fields

def find? (key : String) (fields : Fields) : Option Node := fields.lookup key

/-- Replaces the node of a key, or adds it at the end. -/
def set (key : String) (node : Node) : Fields → Fields
  | [] => [(key, node)]
  | (k, n) :: fs => if k = key then (key, node) :: fs else (k, n) :: set key node fs

/--
Changes the table at a path, given its origin and fields. Tables that are missing on
the way are made; a dotted key does not enter a table that has a header.
-/
def update (isDotted : Bool) (change : Origin → Fields → Option Fields) :
    List String → Origin → Fields → Option Fields
  | [], origin, fields => change origin fields
  | key :: path, _, fields =>
    match fields.find? key with
    | none => do
      let origin := if isDotted then .dotted else .implied
      let inner ← update isDotted change path origin []
      return fields.set key (.table origin inner)
    | some (.leaf _) => none
    | some (.table origin inner) => do
      if isDotted ∧ origin = .header then none
      let inner ← update isDotted change path origin inner
      return fields.set key (.table origin inner)
    | some (.tables elements) => do
      let inner ← update isDotted change path .header (← elements.getLast?)
      return fields.set key (.tables (elements.dropLast ++ [inner]))

def addLeaf (key : String) (value : Value) (fields : Fields) : Option Fields :=
  if (fields.find? key).isSome then none else some (fields ++ [(key, .leaf value)])

/-- Adds a value under a key that may be dotted. A dotted key ends in a table that dotted keys made. -/
def addPair (fields : Fields) (pair : List String × Value) : Option Fields := do
  let key ← pair.1.getLast?
  match pair.1.dropLast with
  | [] => fields.addLeaf key pair.2
  | path => fields.update true (fun origin inner =>
      if origin = .dotted then inner.addLeaf key pair.2 else none) path .header

def addPairs (fields : Fields) (pairs : List (List String × Value)) : Option Fields :=
  pairs.foldlM addPair fields

/-- Completes the table that a header names with the pairs under the header. -/
def addTable (key : String) (pairs : List (List String × Value)) (fields : Fields) : Option Fields := do
  let start ← match fields.find? key with
    | none => some []
    | some (.table .implied inner) => some inner
    | some _ => none
  return fields.set key (.table .header (← addPairs start pairs))

/-- Appends a table to the array of tables that a header names. -/
def addElement (key : String) (pairs : List (List String × Value)) (fields : Fields) : Option Fields := do
  let elements ← match fields.find? key with
    | none => some []
    | some (.tables elements) => some elements
    | some _ => none
  return fields.set key (.tables (elements ++ [← addPairs [] pairs]))

end Fields

/-! ## Finished values -/

mutual
def Node.toValue : Node → Value
  | .leaf v => v
  | .table _ fields => .table (toValues fields)
  | .tables elements => .array (tablesToValues elements)

def toValues : List (String × Node) → List (String × Value)
  | [] => []
  | (k, n) :: fs => (k, n.toValue) :: toValues fs

def tablesToValues : List (List (String × Node)) → List Value
  | [] => []
  | fs :: rest => .table (toValues fs) :: tablesToValues rest
end

end Switchboard.Toml
