import Switchboard.Number.Literal

/-!
# Quoted TOML text

The four quoted forms. Double quotes allow escapes, single quotes do not; the
tripled forms span lines, drop a line break right after the opening quotes and
may end in up to two quotes of their own. No form holds control characters
other than the tab.
-/

namespace Switchboard.Toml.Quoted

/-- No control character but the tab. -/
def isPlain (c : Char) : Bool := c = '\t' || (0x20 ≤ c.toNat && c.toNat ≠ 0x7F)

/-- The character with the given number in hexadecimal digits. -/
def numbered? (digits : List Char) : Option Char := do
  let n ← digits.foldlM (fun n c => do return 16 * n + (← Literal.hexDigit? c)) 0
  if n.isValidChar then some (Char.ofNat n) else none

def escaped? : Char → Option Char
  | 'b' => some '\x08'
  | 't' => some '\t'
  | 'n' => some '\n'
  | 'f' => some '\x0c'
  | 'r' => some '\r'
  | '"' => some '"'
  | '\\' => some '\\'
  | _ => none

/-- Puts a character that may be missing before a text that may be missing. -/
def cons? (c : Option Char) (tail : Option (List Char × List Char)) : Option (List Char × List Char) := do
  let c ← c
  let (text, rest) ← tail
  return (c :: text, rest)

/-- Text up to a double quote. -/
def basic : List Char → Option (List Char × List Char)
  | [] => none
  | '"' :: r => some ([], r)
  | '\\' :: 'u' :: a :: b :: c :: d :: r => cons? (numbered? [a, b, c, d]) (basic r)
  | '\\' :: 'U' :: a :: b :: c :: d :: e :: f :: g :: h :: r =>
    cons? (numbered? [a, b, c, d, e, f, g, h]) (basic r)
  | '\\' :: c :: r => cons? (escaped? c) (basic r)
  | c :: r => if isPlain c then cons? (some c) (basic r) else none

/-- Text up to a single quote. -/
def literal : List Char → Option (List Char × List Char)
  | [] => none
  | '\'' :: r => some ([], r)
  | c :: r => if isPlain c then cons? (some c) (literal r) else none

/-- Up to two more quotes after three, which belong to the text. -/
def closing (quote : Char) : List Char → List Char × List Char
  | c :: d :: r =>
    if c = quote ∧ d = quote then ([c, d], r) else if c = quote then ([c], d :: r) else ([], c :: d :: r)
  | [c] => if c = quote then ([c], []) else ([], [c])
  | [] => ([], [])

/-- Only blanks stand before the next line break. -/
def endsLine : List Char → Bool
  | ' ' :: r | '\t' :: r => endsLine r
  | '\n' :: _ | '\r' :: '\n' :: _ => true
  | _ => false

/-- Text up to three double quotes; `skipping` after a backslash that ended a line. -/
def basicLines (skipping : Bool) : List Char → Option (List Char × List Char)
  | [] => none
  | '"' :: '"' :: '"' :: r => some (closing '"' r)
  | '\r' :: '\n' :: r => if skipping then basicLines true r else cons? (some '\n') (basicLines false r)
  | '\n' :: r => if skipping then basicLines true r else cons? (some '\n') (basicLines false r)
  | '\\' :: 'u' :: a :: b :: c :: d :: r => cons? (numbered? [a, b, c, d]) (basicLines false r)
  | '\\' :: 'U' :: a :: b :: c :: d :: e :: f :: g :: h :: r =>
    cons? (numbered? [a, b, c, d, e, f, g, h]) (basicLines false r)
  | '\\' :: c :: r =>
    if endsLine (c :: r) then basicLines true (c :: r) else cons? (escaped? c) (basicLines false r)
  | c :: r =>
    if skipping ∧ (c = ' ' ∨ c = '\t') then basicLines true r
    else if isPlain c then cons? (some c) (basicLines false r) else none

/-- Text up to three single quotes. -/
def literalLines : List Char → Option (List Char × List Char)
  | [] => none
  | '\'' :: '\'' :: '\'' :: r => some (closing '\'' r)
  | '\r' :: '\n' :: r => cons? (some '\n') (literalLines r)
  | '\n' :: r => cons? (some '\n') (literalLines r)
  | c :: r => if isPlain c then cons? (some c) (literalLines r) else none

def dropLineBreak : List Char → List Char
  | '\n' :: r | '\r' :: '\n' :: r => r
  | r => r

/-- A quoted text within one line. -/
def line : List Char → Option (List Char × List Char)
  | '"' :: r => basic r
  | '\'' :: r => literal r
  | _ => none

/-- A quoted text of any form. -/
def text : List Char → Option (List Char × List Char)
  | '"' :: '"' :: '"' :: r => basicLines false (dropLineBreak r)
  | '\'' :: '\'' :: '\'' :: r => literalLines (dropLineBreak r)
  | cs => line cs

end Switchboard.Toml.Quoted
