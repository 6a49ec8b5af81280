import Switchboard.Toml.Moment
import Switchboard.Toml.Number
import Switchboard.Toml.Quoted
import Switchboard.Toml.Table

/-!
# TOML documents

A document is read into statements, one a line: headers and pairs of a dotted
key and a value. `Document.ofText?` puts the statements together to one table.
Values nest less than 80 deep and keys have less than 80 parts.
-/

namespace Switchboard.Toml

/-- How deep values may nest, and how many parts a key may have. -/
def depthLimit : Nat := 79

/-! ## Blanks and comments -/

def isBlank (c : Char) : Bool := c = ' ' || c = '\t'

def dropBlanks (cs : List Char) : List Char := cs.dropWhile isBlank

/-- A line break, or the end of the text. -/
def lineBreak? : List Char → Option (List Char)
  | [] => some []
  | '\n' :: r | '\r' :: '\n' :: r => some r
  | _ => none

/-- What may follow a statement: blanks and a comment. -/
def lineEnd? (cs : List Char) : Option (List Char) :=
  match dropBlanks cs with
  | '#' :: r => lineBreak? (r.dropWhile Quoted.isPlain)
  | r => lineBreak? r

/-- Drops blanks, line breaks and comments, which end with their line. -/
def dropVoid (inComment : Bool) : List Char → Option (List Char)
  | [] => some []
  | '\n' :: r | '\r' :: '\n' :: r => dropVoid false r
  | c :: r =>
    if inComment then if Quoted.isPlain c then dropVoid true r else none
    else if isBlank c then dropVoid false r
    else if c = '#' then dropVoid true r
    else some (c :: r)

/-! ## Keys -/

def isBare (c : Char) : Bool := c.isAlphanum || c = '_' || c = '-'

/-- A bare or quoted key without dots. -/
def simpleKey? (cs : List Char) : Option (String × List Char) :=
  match cs with
  | '"' :: _ | '\'' :: _ => (Quoted.line cs).map fun (s, r) => (String.ofList s, r)
  | _ =>
    let bare := cs.takeWhile isBare
    if bare.isEmpty then none else some (String.ofList bare, cs.dropWhile isBare)

/-- A key of at most `n` parts, with blanks around each of them. -/
def key? : Nat → List Char → Option (List String × List Char)
  | 0, _ => none
  | n + 1, cs => do
    let (part, r) ← simpleKey? (dropBlanks cs)
    match dropBlanks r with
    | '.' :: r =>
      let (parts, r) ← key? n r
      return (part :: parts, r)
    | r => return ([part], r)

/-! ## Values -/

abbrev ValueReader := List Char → Option (Value × List Char)

/-- A key, an equals sign and a value. -/
def pair? (value? : ValueReader) (cs : List Char) : Option ((List String × Value) × List Char) := do
  let (key, r) ← key? depthLimit cs
  match r with
  | '=' :: r =>
    let (v, r) ← value? (dropBlanks r)
    return ((key, v), r)
  | _ => none

/-- The items of an array up to its closing bracket. Every item takes a character, so the length of the
text is fuel enough. -/
def items? (value? : ValueReader) : Nat → List Char → Option (List Value × List Char)
  | 0, _ => none
  | n + 1, cs => do
    match ← dropVoid false cs with
    | ']' :: r => return ([], r)
    | r =>
      let (v, r) ← value? r
      match ← dropVoid false r with
      | ']' :: r => return ([v], r)
      | ',' :: r =>
        let (vs, r) ← items? value? n r
        return (v :: vs, r)
      | _ => none

/-- The pairs of an inline table up to its closing brace; there is at least one. -/
def inlinePairs? (value? : ValueReader) : Nat → List Char → Option (List (List String × Value) × List Char)
  | 0, _ => none
  | n + 1, cs => do
    let (p, r) ← pair? value? cs
    match dropBlanks r with
    | '\x7d' :: r => return ([p], r)
    | ',' :: r =>
      let (ps, r) ← inlinePairs? value? n r
      return (p :: ps, r)
    | _ => none

def inlineTable? (value? : ValueReader) (cs : List Char) : Option (Value × List Char) := do
  match dropBlanks cs with
  | '\x7d' :: r => return (.table [], r)
  | r =>
    let (pairs, r) ← inlinePairs? value? r.length r
    let fields ← Fields.addPairs [] pairs
    return (.table (toValues fields), r)

def isToken (c : Char) : Bool := isBare c || c = '+' || c = '.'

/-- A number or a truth value. -/
def token? (token : List Char) : Option Value :=
  match token with
  | ['t', 'r', 'u', 'e'] => some (.boolean true)
  | ['f', 'a', 'l', 's', 'e'] => some (.boolean false)
  | _ => ((Number.integer? token).map .integer).or ((Number.float? token).map .float)

/-- A value that holds no others. -/
def scalar? (cs : List Char) : Option (Value × List Char) :=
  match cs with
  | '"' :: _ | '\'' :: _ => (Quoted.text cs).map fun (s, r) => (.string (String.ofList s), r)
  | _ =>
    match Moment.read? cs with
    | some (m, r) => some (.moment m.text, r)
    | none => (token? (cs.takeWhile isToken)).map fun v => (v, cs.dropWhile isToken)

/-- A value with others nested at most `n` deep. -/
def value? : Nat → ValueReader
  | 0, cs => scalar? cs
  | n + 1, cs =>
    match cs with
    | '[' :: r => (items? (value? n) cs.length r).map fun (vs, r) => (.array vs, r)
    | '\x7b' :: r => inlineTable? (value? n) r
    | _ => scalar? cs

/-! ## Statements -/

inductive Header where
  | table (path : List String)
  | element (path : List String)
  deriving DecidableEq, Repr

inductive Statement where
  | header (h : Header)
  | pair (key : List String) (value : Value)

def header? (cs : List Char) : Option (Header × List Char) := do
  match cs with
  | '[' :: '[' :: r =>
    match ← key? depthLimit r with
    | (path, ']' :: ']' :: r) => return (.element path, r)
    | _ => none
  | '[' :: r =>
    match ← key? depthLimit r with
    | (path, ']' :: r) => return (.table path, r)
    | _ => none
  | _ => none

def statement? (cs : List Char) : Option (Statement × List Char) := do
  match cs with
  | '[' :: _ =>
    let (h, r) ← header? cs
    return (.header h, r)
  | _ =>
    let ((key, v), r) ← pair? (value? depthLimit) cs
    return (.pair key v, r)

/-- The statements of a text. Every line takes a character, so the length of the text is fuel enough. -/
def statements? : Nat → List Char → Option (List Statement)
  | 0, _ => some []
  | n + 1, cs =>
    match dropBlanks cs with
    | [] => some []
    | '\n' :: r | '\r' :: '\n' :: r => statements? n r
    | '#' :: r => do statements? n (← lineEnd? ('#' :: r))
    | r => do
      let (s, r) ← statement? r
      let rest ← statements? n (← lineEnd? r)
      return s :: rest

/-! ## Assembly -/

/-- The pairs before the first header, and each header with the pairs under it. -/
def sections : List Statement → List (List String × Value) × List (Header × List (List String × Value))
  | [] => ([], [])
  | .pair k v :: rest =>
    let (pairs, headed) := sections rest
    ((k, v) :: pairs, headed)
  | .header h :: rest =>
    let (pairs, headed) := sections rest
    ([], (h, pairs) :: headed)

def addSection (fields : Fields) (s : Header × List (List String × Value)) : Option Fields := do
  let path := match s.1 with
    | .table path | .element path => path
  let key ← path.getLast?
  fields.update false (fun _ inner =>
    match s.1 with
    | .table _ => inner.addTable key s.2
    | .element _ => inner.addElement key s.2) path.dropLast .header

def assemble (statements : List Statement) : Option Fields := do
  let (pairs, headed) := sections statements
  headed.foldlM addSection (← Fields.addPairs [] pairs)

/-- The table that a text stands for. A byte order mark may come first. -/
def Document.ofText? (text : String) : Option Value := do
  let cs := match text.toList with
    | '\ufeff' :: r => r
    | r => r
  return .table (toValues (← assemble (← statements? (cs.length + 1) cs)))

end Switchboard.Toml
