import Switchboard.Keyed
import Switchboard.Text.Blank

/-!
# Parameters

Named text settings, such as the init parameters of a handler. The entries are
kept in key order, so equal parameters are the same value.
-/

namespace Switchboard

structure Params where
  entries : List (String × String)
  sorted : Keyed.Sorted entries
  deriving DecidableEq

namespace Params

def empty : Params := ⟨[], .nil⟩

instance : Inhabited Params := ⟨empty⟩

def get? (p : Params) (name : String) : Option String := Keyed.find? name p.entries

def contains (p : Params) (name : String) : Bool := (p.get? name).isSome

def insert (p : Params) (name value : String) : Params :=
  ⟨Keyed.insert name value p.entries, p.sorted.insert name value⟩

def erase (p : Params) (name : String) : Params :=
  ⟨Keyed.erase name p.entries, p.sorted.erase name⟩

def ofList (entries : List (String × String)) : Params :=
  ⟨Keyed.ofList entries, Keyed.sorted_ofList entries⟩

def names (p : Params) : List String := p.entries.map (·.1)

def size (p : Params) : Nat := p.entries.length

/-- The parameter as a truth value, when it reads as one. -/
def bool? (p : Params) (name : String) : Option Bool := (p.get? name).bind Text.bool?

def getD (p : Params) (name fallback : String) : String := (p.get? name).getD fallback

/-- Adds the entries of `other` whose names are not taken. -/
def inherit (p other : Params) : Params :=
  other.entries.foldl (fun acc e => if acc.contains e.1 then acc else acc.insert e.1 e.2) p

theorem get?_insert (p : Params) (name key value : String) :
    (p.insert name value).get? key = if name = key then some value else p.get? key :=
  Keyed.find?_insert name key value p.entries

theorem get?_erase (p : Params) (name key : String) :
    (p.erase name).get? key = if name = key then none else p.get? key :=
  Keyed.find?_erase p.sorted.nodup name key

end Params
end Switchboard
