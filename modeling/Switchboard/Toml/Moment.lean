import Switchboard.Number.Literal

/-!
# TOML dates and times

A date, a time of day, or a date with a time and possibly an offset. `text` is
the canonical form: the letters in upper case and fractions of a second without
trailing zeros, cut after nine digits.
-/

namespace Switchboard.Toml

structure Date where
  year : Nat
  month : Nat
  day : Nat
  deriving DecidableEq, Repr

structure Time where
  hour : Nat
  minute : Nat
  second : Nat
  fraction : List Char
  deriving DecidableEq, Repr

/-- Minutes east of the reference, or the letter for the reference itself. -/
inductive Offset where
  | reference
  | minutes (value : Int)
  deriving DecidableEq, Repr

inductive Moment where
  | date (d : Date)
  | time (t : Time)
  | both (d : Date) (t : Time) (offset : Option Offset)
  deriving DecidableEq, Repr

def Date.isLeap (year : Nat) : Bool := year % 4 = 0 && (year % 100 ≠ 0 || year % 400 = 0)

def Date.daysIn (year : Nat) : Nat → Nat
  | 2 => if isLeap year then 29 else 28
  | 4 | 6 | 9 | 11 => 30
  | _ => 31

namespace Moment

def number? (digits : List Char) : Option Nat := Literal.nat? digits

def date? : List Char → Option (Date × List Char)
  | a :: b :: c :: d :: '-' :: e :: f :: '-' :: g :: h :: r => do
    let year ← number? [a, b, c, d]
    let month ← number? [e, f]
    let day ← number? [g, h]
    if 1 ≤ month ∧ month ≤ 12 ∧ 1 ≤ day ∧ day ≤ Date.daysIn year month then
      some (⟨year, month, day⟩, r)
    else none
  | _ => none

/-- The digits after a point, if there is one, and the rest. -/
def fraction? : List Char → Option (List Char × List Char)
  | '.' :: r =>
    let digits := r.takeWhile Literal.isDigit
    if digits.isEmpty then none else some (digits, r.dropWhile Literal.isDigit)
  | r => some ([], r)

def time? : List Char → Option (Time × List Char)
  | a :: b :: ':' :: c :: d :: ':' :: e :: f :: r => do
    let hour ← number? [a, b]
    let minute ← number? [c, d]
    let second ← number? [e, f]
    let (fraction, r) ← fraction? r
    if hour ≤ 23 ∧ minute ≤ 59 ∧ second ≤ 60 then some (⟨hour, minute, second, fraction⟩, r) else none
  | _ => none

def offset? : List Char → Option Offset × List Char
  | 'Z' :: r | 'z' :: r => (some .reference, r)
  | s :: a :: b :: ':' :: c :: d :: r =>
    let east : Option Int := if s = '+' then some 1 else if s = '-' then some (-1) else none
    match east, number? [a, b], number? [c, d] with
    | some east, some hours, some minutes =>
      if hours ≤ 23 ∧ minutes ≤ 59 then (some (.minutes (east * (60 * hours + minutes))), r)
      else (none, s :: a :: b :: ':' :: c :: d :: r)
    | _, _, _ => (none, s :: a :: b :: ':' :: c :: d :: r)
  | r => (none, r)

/-- A date and the time after it, if one follows. -/
def afterDate (d : Date) : List Char → Moment × List Char
  | s :: r =>
    if s = 'T' ∨ s = 't' ∨ s = ' ' then
      match time? r with
      | some (t, r) =>
        let (offset, r) := offset? r
        (.both d t offset, r)
      | none => (.date d, s :: r)
    else (.date d, s :: r)
  | [] => (.date d, [])

def read? (cs : List Char) : Option (Moment × List Char) :=
  match date? cs with
  | some (d, r) => some (afterDate d r)
  | none => (time? cs).map fun (t, r) => (.time t, r)

/-! ## Canonical text -/

/-- At least the given number of digits. -/
def padded (width n : Nat) : String :=
  let ds := Nat.toDigits 10 n
  String.ofList (List.replicate (width - ds.length) '0' ++ ds)

def fractionText (digits : List Char) : String :=
  match ((digits.take 9).reverse.dropWhile (· = '0')).reverse with
  | [] => ""
  | ds => "." ++ String.ofList ds

def dateText (d : Date) : String := padded 4 d.year ++ "-" ++ padded 2 d.month ++ "-" ++ padded 2 d.day

def timeText (t : Time) : String :=
  padded 2 t.hour ++ ":" ++ padded 2 t.minute ++ ":" ++ padded 2 t.second ++ fractionText t.fraction

def offsetText : Offset → String
  | .reference => "Z"
  | .minutes m =>
    (if m < 0 then "-" else "+") ++ padded 2 (m.natAbs / 60) ++ ":" ++ padded 2 (m.natAbs % 60)

def text : Moment → String
  | date d => dateText d
  | time t => timeText t
  | both d t offset => dateText d ++ "T" ++ timeText t ++ ((offset.map offsetText).getD "")

end Moment
end Switchboard.Toml
