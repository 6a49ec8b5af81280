import Mathlib.Algebra.Field.Rat
import Mathlib.Algebra.Order.Ring.Rat
import Mathlib.Algebra.Order.Field.Basic
import Mathlib.Data.List.TakeWhile
import Switchboard.Proofs.Canonical

/-!
# Integers in calls

Which integer a JSON value stands for is said without the converter: the exact
rational value of a double, and the grammar of a text around which blanks do
not count. Conversion to an integer scalar takes exactly the values that stand
for an integer of its range. A value that stands for one of 64 bits outside the
range is told apart from one that stands for none, and an integer written as
text reads back.
-/

namespace Switchboard

/-! ## The value of a double -/

namespace Double

def magnitude (d : Double) : ℚ := d.mantissa * 2 ^ d.exponent

/-- The exact value. -/
def toRat (d : Double) : ℚ := if d.negative then -d.magnitude else d.magnitude

theorem scaled_snd_pos (m : Nat) (e : Int) : 0 < (scaled m 1 e).2 := by
  simp only [scaled, one_mul]
  exact Nat.pow_pos (by decide)

theorem magnitude_eq_div (d : Double) :
    d.magnitude = ((scaled d.mantissa 1 d.exponent).1 : ℚ) / (scaled d.mantissa 1 d.exponent).2 := by
  have he : d.exponent = (d.exponent.toNat : Int) - (-d.exponent).toNat := by omega
  have hz : (2 : ℚ) ^ d.exponent = 2 ^ d.exponent.toNat / 2 ^ (-d.exponent).toNat := by
    conv_lhs => rw [he]
    rw [zpow_sub₀ two_ne_zero, zpow_natCast, zpow_natCast]
  simp only [magnitude, scaled, one_mul, hz, Nat.pow_eq, Nat.cast_mul, Nat.cast_pow, Nat.cast_ofNat]
  rw [mul_div_assoc]

/-- A quotient of naturals is a natural number only if the division leaves nothing. -/
theorem cast_div_eq_iff {a b k : Nat} (hb : 0 < b) : (a : ℚ) / b = k ↔ a % b = 0 ∧ a / b = k := by
  have hb' : (b : ℚ) ≠ 0 := Nat.cast_ne_zero.2 hb.ne'
  rw [div_eq_iff hb', ← Nat.cast_mul, Nat.cast_inj]
  constructor
  · rintro rfl
    exact ⟨Nat.mul_mod_left k b, Nat.mul_div_cancel k hb⟩
  · rintro ⟨hm, rfl⟩
    exact (Nat.div_mul_cancel (Nat.dvd_of_mod_eq_zero hm)).symm

theorem magnitude_nonneg (d : Double) : 0 ≤ d.magnitude := by
  rw [magnitude_eq_div]
  exact div_nonneg (Nat.cast_nonneg _) (Nat.cast_nonneg _)

/-- The integer with the given magnitude. -/
def signed (negative : Bool) (k : Nat) : Int := if negative then -(k : Int) else k

theorem toInt?_eq_some (d : Double) (n : Int) :
    d.toInt? = some n ↔ ∃ k : Nat, d.magnitude = k ∧ signed d.negative k = n := by
  obtain ⟨⟨a, b⟩, hab⟩ : ∃ ab, scaled d.mantissa 1 d.exponent = ab := ⟨_, rfl⟩
  have hb : 0 < b := by
    have := scaled_snd_pos d.mantissa d.exponent
    rwa [hab] at this
  have hm (k : Nat) : d.magnitude = k ↔ a % b = 0 ∧ a / b = k := by
    rw [magnitude_eq_div, hab]
    exact cast_div_eq_iff hb
  simp only [hm, toInt?, hab]
  split
  · rename_i h
    simp [h, signed]
  · rename_i h
    simp [h]

theorem toRat_eq_iff (d : Double) (n : Int) :
    d.toRat = n ↔ ∃ k : Nat, d.magnitude = k ∧ signed d.negative k = n := by
  unfold toRat signed
  constructor
  · intro h
    have hn := d.magnitude_nonneg
    cases hd : d.negative with
    | false =>
      simp only [hd, Bool.false_eq_true, if_false] at h
      rw [h] at hn ⊢
      obtain ⟨k, rfl⟩ := Int.eq_ofNat_of_zero_le (Int.cast_nonneg_iff.1 hn)
      exact ⟨k, by simp, by simp⟩
    | true =>
      simp only [hd, if_true] at h
      have hm : d.magnitude = ((-n : Int) : ℚ) := by
        rw [Int.cast_neg, ← h, neg_neg]
      rw [hm] at hn ⊢
      obtain ⟨k, hk⟩ := Int.eq_ofNat_of_zero_le (Int.cast_nonneg_iff.1 hn)
      exact ⟨k, by rw [hk]; simp, by rw [if_pos rfl]; omega⟩
  · rintro ⟨k, hk, rfl⟩
    rw [hk]
    split <;> simp

theorem toInt?_eq_some_iff {d : Double} {n : Int} : d.toInt? = some n ↔ d.toRat = n :=
  (toInt?_eq_some d n).trans (toRat_eq_iff d n).symm

end Double

/-! ## Trimmed texts -/

namespace Text

/-- `core` is what is left of a text once the blanks on both sides are gone. -/
def Trims (cs core : List Char) : Prop :=
  (∃ before after, cs = before ++ core ++ after ∧
    (∀ c ∈ before, isBlank c = true) ∧ ∀ c ∈ after, isBlank c = true) ∧
  (∀ c ∈ core.head?, isBlank c = false) ∧ ∀ c ∈ core.getLast?, isBlank c = false

theorem dropWhile_of_head {p : Char → Bool} {cs : List Char} (h : ∀ c ∈ cs.head?, p c = false) :
    cs.dropWhile p = cs := by
  cases cs with
  | nil => rfl
  | cons c cs => simp [h c rfl]

theorem trimChars_append {before core after : List Char} (hb : ∀ c ∈ before, isBlank c = true)
    (ha : ∀ c ∈ after, isBlank c = true) (hh : ∀ c ∈ core.head?, isBlank c = false)
    (hl : ∀ c ∈ core.getLast?, isBlank c = false) : trimChars (before ++ core ++ after) = core := by
  have hr : ∀ c ∈ after.reverse, isBlank c = true := fun c hc => ha c (List.mem_reverse.1 hc)
  have hd : (core ++ after).dropWhile isBlank = if core = [] then [] else core ++ after := by
    cases core with
    | nil => simpa using List.dropWhile_eq_nil_iff.2 ha
    | cons c cs => exact dropWhile_of_head (by simpa using hh)
  rw [trimChars, List.append_assoc, List.dropWhile_append_of_pos hb, hd]
  split
  · simp_all
  · rw [List.reverse_append, List.dropWhile_append_of_pos hr,
      dropWhile_of_head (by simpa using hl), List.reverse_reverse]

theorem trims_trimChars (cs : List Char) : Trims cs (trimChars cs) := by
  obtain ⟨rest, hrest⟩ : ∃ rest, rest = cs.dropWhile isBlank := ⟨_, rfl⟩
  have hcs : cs = cs.takeWhile isBlank ++ rest := by
    rw [hrest, List.takeWhile_append_dropWhile]
  have hsplit : rest = trimChars cs ++ (rest.reverse.takeWhile isBlank).reverse := by
    rw [trimChars, ← hrest, ← List.reverse_append, List.takeWhile_append_dropWhile,
      List.reverse_reverse]
  refine ⟨⟨cs.takeWhile isBlank, (rest.reverse.takeWhile isBlank).reverse, ?whole, ?before, ?after⟩,
    ?head, getLast?_trimChars cs⟩
  case whole => rw [List.append_assoc, ← hsplit, ← hcs]
  case before => exact fun c hc => List.mem_takeWhile_imp hc
  case after => exact fun c hc => List.mem_takeWhile_imp (List.mem_reverse.1 hc)
  case head =>
    intro c hc
    have hh : rest.head? = some c := by
      rw [hsplit, List.head?_append, Option.mem_def.1 hc, Option.some_or]
    have := List.head?_dropWhile_not isBlank cs
    rw [← hrest, hh] at this
    simpa using this

theorem trimChars_eq_iff {cs core : List Char} : trimChars cs = core ↔ Trims cs core := by
  constructor
  · rintro rfl
    exact trims_trimChars cs
  · rintro ⟨⟨before, after, rfl, hb, ha⟩, hh, hl⟩
    exact trimChars_append hb ha hh hl

end Text

/-! ## Integer literals -/

namespace Literal

/-- One or more ASCII digits, read in base ten. -/
def IsNat (cs : List Char) (n : Nat) : Prop :=
  cs ≠ [] ∧ (∀ c ∈ cs, c.isDigit = true) ∧ Nat.ofDigitChars 10 cs 0 = n

/-- Digits after an optional sign. -/
inductive IsInteger : List Char → Int → Prop
  | bare {cs n} : IsNat cs n → IsInteger cs n
  | plus {cs n} : IsNat cs n → IsInteger ('+' :: cs) n
  | minus {cs n} : IsNat cs n → IsInteger ('-' :: cs) (-n)

/-- An integer literal with blanks around it. -/
def Spells (cs : List Char) (n : Int) : Prop := ∃ core, Text.Trims cs core ∧ IsInteger core n

theorem digit?_eq_some_iff {c : Char} {d : Nat} :
    digit? c = some d ↔ c.isDigit = true ∧ c.toNat - '0'.toNat = d := by
  have h : ('0' ≤ c ∧ c ≤ '9') ↔ c.isDigit = true := by
    simp only [Char.isDigit, Bool.and_eq_true, decide_eq_true_eq]
    rfl
  unfold digit?
  split
  · simp_all
  · simp_all

theorem digits?_eq_some_iff {cs : List Char} {acc n : Nat} :
    digits? cs acc = some n ↔ (∀ c ∈ cs, c.isDigit = true) ∧ Nat.ofDigitChars 10 cs acc = n := by
  induction cs generalizing acc with
  | nil => simp [digits?, Nat.ofDigitChars_nil]
  | cons c cs ih =>
    simp only [digits?, Option.bind_eq_some_iff, digit?_eq_some_iff, ih, Nat.ofDigitChars_cons,
      List.forall_mem_cons]
    constructor
    · rintro ⟨d, ⟨hc, rfl⟩, hcs, hn⟩
      exact ⟨⟨hc, hcs⟩, hn⟩
    · rintro ⟨⟨hc, hcs⟩, hn⟩
      exact ⟨_, ⟨hc, rfl⟩, hcs, hn⟩

theorem nat?_eq_some_iff {cs : List Char} {n : Nat} : nat? cs = some n ↔ IsNat cs n := by
  unfold nat? IsNat
  cases cs with
  | nil => simp
  | cons c cs =>
    rw [if_neg (by simp), digits?_eq_some_iff]
    simp

theorem IsNat.head_isDigit {c : Char} {cs : List Char} {n : Nat} (h : IsNat (c :: cs) n) :
    c.isDigit = true :=
  h.2.1 c List.mem_cons_self

theorem unsigned?_eq_some_iff {cs : List Char} {n : Nat} :
    unsigned? cs = some n ↔ IsNat cs n ∨ ∃ ds, cs = '+' :: ds ∧ IsNat ds n := by
  unfold unsigned?
  split
  · rename_i ds
    rw [nat?_eq_some_iff]
    constructor
    · exact fun h => .inr ⟨ds, rfl, h⟩
    · rintro (h | ⟨ds', hds, h⟩)
      · exact absurd h.head_isDigit (by decide)
      · cases hds
        exact h
  · rename_i hcs
    rw [nat?_eq_some_iff]
    constructor
    · exact .inl
    · rintro (h | ⟨ds, rfl, -⟩)
      · exact h
      · exact absurd rfl (hcs ds)

theorem integer?_minus (cs : List Char) : integer? ('-' :: cs) = (nat? cs).map fun n : Nat => -(n : Int) := by
  cases h : nat? cs <;> simp [integer?, h]

theorem integer?_of_unsigned {cs : List Char} (h : ∀ ds, cs ≠ '-' :: ds) :
    integer? cs = (unsigned? cs).map fun n : Nat => (n : Int) := by
  unfold integer?
  split
  · exact absurd rfl (h _)
  · cases unsigned? cs <;> simp

theorem integer?_eq_some_iff {cs : List Char} {n : Int} : integer? cs = some n ↔ IsInteger cs n := by
  by_cases hm : ∃ ds, cs = '-' :: ds
  · obtain ⟨ds, rfl⟩ := hm
    rw [integer?_minus, Option.map_eq_some_iff]
    constructor
    · rintro ⟨k, hk, rfl⟩
      exact .minus (nat?_eq_some_iff.1 hk)
    · intro h
      cases h with
      | bare h => exact absurd h.head_isDigit (by decide)
      | minus h => exact ⟨_, nat?_eq_some_iff.2 h, rfl⟩
  · rw [integer?_of_unsigned (not_exists.1 hm), Option.map_eq_some_iff]
    constructor
    · rintro ⟨k, hk, rfl⟩
      rcases unsigned?_eq_some_iff.1 hk with h | ⟨ds, rfl, h⟩
      · exact .bare h
      · exact .plus h
    · intro h
      cases h with
      | bare h => exact ⟨_, unsigned?_eq_some_iff.2 (.inl h), rfl⟩
      | plus h => exact ⟨_, unsigned?_eq_some_iff.2 (.inr ⟨_, rfl, h⟩), rfl⟩
      | minus h => exact absurd ⟨_, rfl⟩ hm

/-- Reading a text without the blanks around it. -/
theorem integer?_trimChars {cs : List Char} {n : Int} :
    integer? (Text.trimChars cs) = some n ↔ Spells cs n := by
  rw [integer?_eq_some_iff]
  constructor
  · exact fun h => ⟨_, Text.trims_trimChars cs, h⟩
  · rintro ⟨core, hc, h⟩
    rwa [Text.trimChars_eq_iff.2 hc]

/-! ### What a number writes -/

theorem isBlank_of_isDigit {c : Char} (h : c.isDigit = true) : Text.isBlank c = false := by
  have hc : 48 ≤ c.toNat ∧ c.toNat ≤ 57 := by
    simpa [Char.isDigit, UInt32.le_iff_toNat_le] using h
  simp only [Text.isBlank, Bool.or_eq_false_iff, Bool.and_eq_false_iff, decide_eq_false_iff_not,
    beq_eq_false_iff_ne]
  omega

/-- There is no blank in a literal, so its trimmed form is the literal itself. -/
theorem IsInteger.spells {cs : List Char} {n : Int} (h : IsInteger cs n) : Spells cs n := by
  have hb : ∀ c ∈ cs, Text.isBlank c = false := by
    cases h with
    | bare h => exact fun c hc => isBlank_of_isDigit (h.2.1 c hc)
    | plus h | minus h =>
      exact List.forall_mem_cons.2 ⟨by decide, fun c hc => isBlank_of_isDigit (h.2.1 c hc)⟩
  refine ⟨cs, ⟨⟨[], [], by simp, by simp, by simp⟩, ?head, ?last⟩, h⟩
  case head => exact fun c hc => hb c (List.mem_of_mem_head? hc)
  case last => exact fun c hc => hb c (List.mem_of_mem_getLast? hc)

theorem isNat_repr (n : Nat) : IsNat n.repr.toList n := by
  rw [Nat.repr_eq_ofList_toDigits, String.toList_ofList]
  exact ⟨Nat.toDigits_ne_nil, fun _ => Nat.isDigit_of_mem_toDigits (by decide) (by decide),
    Nat.ofDigitChars_ten_toDigits⟩

theorem isInteger_toString (n : Int) : IsInteger (toString n).toList n := by
  rw [Int.toString_eq_repr, Int.repr_eq_if]
  split
  · rename_i h
    have hn : ((n.toNat : Nat) : Int) = n := Int.toNat_of_nonneg h
    have := IsInteger.bare (isNat_repr n.toNat)
    rwa [hn] at this
  · rename_i h
    have hn : -(((-n).toNat : Nat) : Int) = n := by omega
    have := IsInteger.minus (isNat_repr (-n).toNat)
    rw [hn] at this
    simpa using this

end Literal

namespace Rpc

/-! ## What a value stands for -/

/-- The integer that a number or a text stands for. -/
def Denotes : Json → Int → Prop
  | .int m, n => m = n
  | .double d, n => d.toRat = n
  | .string s, n => Literal.Spells s.toList n
  | _, _ => False

/-- A number or a text as a report shows it. -/
def shown? : Json → Option String
  | .int m => some (toString m)
  | .double d => some d.text
  | .string s => some s
  | _ => none

def FitsLong (n : Int) : Prop := -2 ^ 63 ≤ n ∧ n < 2 ^ 63

theorem isLong_iff {n : Int} : Width.isLong n = true ↔ FitsLong n := by
  have hl : Width.leastLong = -2 ^ 63 := by decide
  have hg : Width.greatestLong = 2 ^ 63 - 1 := by decide
  simp only [Width.isLong, FitsLong, hl, hg, Bool.and_eq_true, decide_eq_true_eq]
  omega

/-- The reading by which conversion finds an integer, before any bound. -/
def reading? : Json → Option Int
  | .int m => some m
  | .double d => d.toInt?
  | .string s => Literal.integer? (Text.trimChars s.toList)
  | _ => none

theorem reading?_eq_some_iff {v : Json} {n : Int} : reading? v = some n ↔ Denotes v n := by
  cases v with
  | int m => simp [reading?, Denotes]
  | double d => exact Double.toInt?_eq_some_iff
  | string s => exact Literal.integer?_trimChars
  | _ => simp [reading?, Denotes]

theorem Denotes.unique {v : Json} {m n : Int} (hm : Denotes v m) (hn : Denotes v n) : m = n :=
  Option.some.inj ((reading?_eq_some_iff.2 hm).symm.trans (reading?_eq_some_iff.2 hn))

variable {kind : Scalar} {type : String} {v w : Json} {n lo hi : Int}

theorem convertInteger_of_denotes (h : Denotes v n) (hn : FitsLong n) :
    convertInteger kind type v = boundedInt kind type n := by
  have hl : (reading? v).filter Width.isLong = some n := by
    rw [reading?_eq_some_iff.2 h]
    exact Option.filter_some_pos (isLong_iff.2 hn)
  cases v with
  | int m =>
    cases h
    exact if_pos (isLong_iff.2 hn)
  | double d =>
    have hd : d.toInt?.filter Width.isLong = some n := hl
    simp only [convertInteger, hd]
  | string s =>
    have hs : integerText? s = some n := hl
    simp only [convertInteger, hs]
  | _ => cases h

theorem convertInteger_of_shown {s : String} (hs : shown? v = some s)
    (h : ∀ n, Denotes v n → ¬ FitsLong n) :
    convertInteger kind type v = .error (.unreadable type s) := by
  have hl : (reading? v).filter Width.isLong = none := by
    rw [Option.filter_eq_none_iff]
    exact fun n hn hl => h n (reading?_eq_some_iff.1 hn) (isLong_iff.1 hl)
  cases v with
  | int m =>
    cases hs
    exact if_neg fun hm => h m rfl (isLong_iff.1 hm)
  | double d =>
    cases hs
    have hd : d.toInt?.filter Width.isLong = none := hl
    simp only [convertInteger, hd]
  | string s =>
    cases hs
    have ht : integerText? s = none := hl
    simp only [convertInteger, ht]
  | _ => cases hs

theorem convertInteger_of_not_shown (hs : shown? v = none) :
    convertInteger kind type v = .error (.incompatible type v.kind) := by
  cases v with
  | int | double | string => cases hs
  | _ => rfl

/-- A value stands for an integer of 64 bits, or reads as none, or is no number and no text. -/
theorem denotes_cases (v : Json) :
    (∃ n, Denotes v n ∧ FitsLong n) ∨ (∃ s, shown? v = some s ∧ ∀ n, Denotes v n → ¬ FitsLong n) ∨
      (shown? v = none ∧ ∀ n, ¬ Denotes v n) := by
  by_cases h : ∃ n, Denotes v n ∧ FitsLong n
  · exact .inl h
  · cases hs : shown? v with
    | some s => exact .inr (.inl ⟨s, rfl, fun n hd hn => h ⟨n, hd, hn⟩⟩)
    | none =>
      refine .inr (.inr ⟨rfl, fun n hd => ?_⟩)
      cases v with
      | int | double | string => cases hs
      | _ => exact hd

theorem boundedInt_eq_error_iff {e : ConversionFault} (hk : kind.range? = some (lo, hi)) :
    boundedInt kind type n = .error e ↔
      e = .outOfRange type (toString n) ∧ ¬ (lo ≤ n ∧ n ≤ hi) := by
  unfold boundedInt
  rw [hk]
  dsimp only
  split
  · constructor
    · intro h
      cases h
      exact ⟨rfl, by omega⟩
    · rintro ⟨rfl, -⟩
      rfl
  · constructor
    · intro h
      cases h
    · omega

theorem fitsLong_of_range (hk : kind.range? = some (lo, hi)) (h : lo ≤ n ∧ n ≤ hi) : FitsLong n :=
  isLong_iff.1 (isLong_of_range hk h)

theorem convertInteger_eq_ok_iff (hk : kind.range? = some (lo, hi)) :
    convertInteger kind type v = .ok w ↔ ∃ n, w = .int n ∧ Denotes v n ∧ lo ≤ n ∧ n ≤ hi := by
  rcases denotes_cases v with ⟨n, hd, hn⟩ | ⟨s, hs, hv⟩ | ⟨hs, hv⟩
  · rw [convertInteger_of_denotes hd hn, boundedInt_eq_ok_iff hk]
    constructor
    · rintro ⟨rfl, hb⟩
      exact ⟨n, rfl, hd, hb⟩
    · rintro ⟨m, rfl, hm, hb⟩
      cases hd.unique hm
      exact ⟨rfl, hb⟩
  · rw [convertInteger_of_shown hs hv]
    refine iff_of_false (fun h => nomatch h) ?_
    rintro ⟨n, -, hd, hb⟩
    exact hv n hd (fitsLong_of_range hk hb)
  · rw [convertInteger_of_not_shown hs]
    refine iff_of_false (fun h => nomatch h) ?_
    rintro ⟨n, -, hd, -⟩
    exact hv n hd

theorem convertInteger_eq_error_iff {e : ConversionFault} (hk : kind.range? = some (lo, hi)) :
    convertInteger kind type v = .error e ↔
      (∃ n, e = .outOfRange type (toString n) ∧ Denotes v n ∧ FitsLong n ∧ ¬ (lo ≤ n ∧ n ≤ hi)) ∨
      (∃ s, e = .unreadable type s ∧ shown? v = some s ∧ ∀ n, Denotes v n → ¬ FitsLong n) ∨
      (e = .incompatible type v.kind ∧ shown? v = none) := by
  rcases denotes_cases v with ⟨n, hd, hn⟩ | ⟨s, hs, hv⟩ | ⟨hs, hv⟩
  · have hs : shown? v ≠ none := by
      cases v <;> first | exact Option.some_ne_none _ | cases hd
    rw [convertInteger_of_denotes hd hn, boundedInt_eq_error_iff hk]
    constructor
    · rintro ⟨rfl, hb⟩
      exact .inl ⟨n, rfl, hd, hn, hb⟩
    · rintro (⟨m, rfl, hm, -, hb⟩ | ⟨s, -, -, hv⟩ | ⟨-, hv⟩)
      · cases hd.unique hm
        exact ⟨rfl, hb⟩
      · exact absurd hn (hv n hd)
      · exact absurd hv hs
  · rw [convertInteger_of_shown hs hv, Except.error.injEq]
    constructor
    · rintro rfl
      exact .inr (.inl ⟨s, rfl, hs, hv⟩)
    · rintro (⟨n, -, hd, hn, -⟩ | ⟨s', rfl, hs', -⟩ | ⟨-, hs'⟩)
      · exact absurd hn (hv n hd)
      · cases hs.symm.trans hs'
        rfl
      · cases hs.symm.trans hs'
  · rw [convertInteger_of_not_shown hs, Except.error.injEq]
    constructor
    · rintro rfl
      exact .inr (.inr ⟨rfl, hs⟩)
    · rintro (⟨n, -, hd, -⟩ | ⟨s', -, hs', -⟩ | ⟨rfl, -⟩)
      · exact absurd hd (hv n)
      · cases hs.symm.trans hs'
      · rfl

theorem convert_eq_convertInteger {t : ValueType} (hk : kind.range? = some (lo, hi))
    (ht : t = .primitive kind ∨ t = .boxed kind) (hv : v ≠ .null) :
    convert t v = convertInteger kind t.name v := by
  have hn : v.isNull = false := by
    cases v <;> first | rfl | exact absurd rfl hv
  rw [← convertScalar_of_range hk]
  rcases ht with rfl | rfl <;> simp [convert, hn, ValueType.name]

/--
An integer scalar takes the values that stand for an integer of its range, and
nothing else. An integer of 64 bits outside the range is out of range; any other
number or text does not read; no other value fits. An integer of the range
survives the way through text.
-/
theorem convert_integer_exactly (hk : kind.range? = some (lo, hi)) {t : ValueType}
    (ht : t = .primitive kind ∨ t = .boxed kind) :
    (∀ v, v ≠ .null →
      (∀ w, convert t v = .ok w ↔ ∃ n, w = .int n ∧ Denotes v n ∧ lo ≤ n ∧ n ≤ hi) ∧
      ∀ e, convert t v = .error e ↔
        (∃ n, e = .outOfRange t.name (toString n) ∧
          Denotes v n ∧ FitsLong n ∧ ¬ (lo ≤ n ∧ n ≤ hi)) ∨
        (∃ s, e = .unreadable t.name s ∧ shown? v = some s ∧ ∀ n, Denotes v n → ¬ FitsLong n) ∨
        (e = .incompatible t.name v.kind ∧ shown? v = none)) ∧
    ∀ n : Int, lo ≤ n → n ≤ hi →
      convert .string (.int n) = .ok (.string (toString n)) ∧
      convert t (.string (toString n)) = .ok (.int n) := by
  refine ⟨fun v hv => ⟨fun w => ?ok, fun e => ?error⟩, fun n hlo hhi => ⟨?text, ?trip⟩⟩
  case ok =>
    rw [convert_eq_convertInteger hk ht hv]
    exact convertInteger_eq_ok_iff hk
  case error =>
    rw [convert_eq_convertInteger hk ht hv]
    exact convertInteger_eq_error_iff hk
  case text => simp [convert, Json.isNull, convertText]
  case trip =>
    rw [convert_eq_convertInteger hk ht (by simp), convertInteger_eq_ok_iff hk]
    exact ⟨n, rfl, (Literal.isInteger_toString n).spells, hlo, hhi⟩

/-- Signs, zeros and blanks around a text do not count, and `2^63` as a double is no integer of 64 bits. -/
theorem convert_integer_exactly_sample :
    convert (.boxed .byte) (.string " +0127\t") = .ok (.int 127) ∧
    convert (.boxed .byte) (.double ⟨true, 2 ^ 52 + 2 ^ 45, -45⟩) =
      .error (.outOfRange "Byte" "-129") ∧
    (∃ s, convert (.primitive .long) (.double ⟨false, 2 ^ 52, 11⟩) = .error (.unreadable "long" s)) ∧
    convert (.primitive .long) (.string (toString Width.leastLong)) = .ok (.int Width.leastLong) := by
  have hbyte := (convert_integer_exactly (show Scalar.byte.range? = some (_, _) from rfl) (.inr rfl)).1
  obtain ⟨hlong, htrip⟩ :=
    convert_integer_exactly (show Scalar.long.range? = some (_, _) from rfl) (.inl rfl)
  refine ⟨?text, ?negative, ?limit, (htrip _ le_rfl (by decide)).2⟩
  case text =>
    have hd : Denotes (.string " +0127\t") 127 := reading?_eq_some_iff.1 (by decide)
    exact ((hbyte _ (by simp)).1 _).2 ⟨127, rfl, hd, by decide, by decide⟩
  case negative =>
    have hd : Denotes (.double ⟨true, 2 ^ 52 + 2 ^ 45, -45⟩) (-129) :=
      reading?_eq_some_iff.1 (by decide)
    exact ((hbyte _ (by simp)).2 _).2 (.inl ⟨-129, rfl, hd, ⟨by decide, by decide⟩, by decide⟩)
  case limit =>
    have hd : Denotes (.double ⟨false, 2 ^ 52, 11⟩) (2 ^ 63) := reading?_eq_some_iff.1 (by decide)
    refine ⟨_, ((hlong _ (by simp)).2 _).2 (.inr (.inl ⟨_, rfl, rfl, fun n hn hf => ?_⟩))⟩
    rw [hn.unique hd] at hf
    exact absurd hf.2 (by decide)

end Rpc
end Switchboard
