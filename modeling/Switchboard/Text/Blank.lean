/-!
# Blanks

`isBlank` is the Unicode property White_Space. `trim` drops blanks at both
ends of a text and nothing else; a text is blank when trimming leaves it empty.
`lowerAscii` lowers the letters `A` to `Z` and leaves every other character.
-/

namespace Switchboard.Text

/-- The characters with the Unicode property White_Space. -/
def isBlank (c : Char) : Bool :=
  let n := c.toNat
  (0x9 ≤ n && n ≤ 0xD) || n == 0x20 || n == 0x85 || n == 0xA0 || n == 0x1680 ||
    (0x2000 ≤ n && n ≤ 0x200A) || n == 0x2028 || n == 0x2029 || n == 0x202F || n == 0x205F ||
    n == 0x3000

def trimChars (cs : List Char) : List Char :=
  ((cs.dropWhile isBlank).reverse.dropWhile isBlank).reverse

def trim (s : String) : String :=
  String.ofList (trimChars s.toList)

def IsBlank (s : String) : Prop := trim s = ""

instance (s : String) : Decidable (IsBlank s) := inferInstanceAs (Decidable (trim s = ""))

def lowerAscii (s : String) : String :=
  String.ofList (s.toList.map Char.toLower)

/-- A text that reads as a truth value, up to blanks around it and letter case. -/
def bool? (s : String) : Option Bool :=
  match lowerAscii (trim s) with
  | "true" => some true
  | "false" => some false
  | _ => none

/-! ## What trimming keeps -/

/-- The last character of a trimmed text is no blank. -/
theorem getLast?_trimChars (cs : List Char) : ∀ c ∈ (trimChars cs).getLast?, isBlank c = false := by
  intro c hc
  rw [trimChars, List.getLast?_reverse] at hc
  have := List.head?_dropWhile_not isBlank (cs.dropWhile isBlank).reverse
  simp_all

end Switchboard.Text
