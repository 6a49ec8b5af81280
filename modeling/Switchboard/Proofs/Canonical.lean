import Switchboard.Rpc.Conversion

/-!
# Canonical values

Conversion is a retraction: what it yields is canonical for its type, and a
canonical value converts to itself. For scalars each rule lands in its own range.
A bean is settled by looking up: under each name it holds what the last writable
property of that name holds, so the beans that conversion yields are the sorted
entries with canonical values, or null where nothing is canonical.
-/

namespace Switchboard.Rpc

variable {kind : Scalar} {type : String} {v w : Json}

/-! ## Scalars -/

theorem boundedInt_eq_ok_iff {n lo hi : Int} (hk : kind.range? = some (lo, hi)) :
    boundedInt kind type n = .ok w ↔ w = .int n ∧ lo ≤ n ∧ n ≤ hi := by
  unfold boundedInt
  rw [hk]
  dsimp only
  split
  · constructor
    · intro h
      cases h
    · omega
  · constructor
    · intro h
      cases h
      exact ⟨rfl, by omega⟩
    · rintro ⟨rfl, -⟩
      rfl

theorem boundedFloat_eq_ok_iff {r : FloatReading} :
    boundedFloat kind type r = .ok w ↔
      ∃ d, r = .finite d ∧ w = .double d ∧ (kind = .double ∨ d.fitsSingle = true) := by
  cases r with
  | infinite => simp [boundedFloat]
  | nan => simp [boundedFloat]
  | finite d =>
    simp only [boundedFloat, FloatReading.finite.injEq, exists_eq_left']
    split
    · rename_i h
      constructor
      · exact fun hw => ⟨(Except.ok.inj hw).symm, h⟩
      · rintro ⟨rfl, -⟩
        rfl
    · rename_i h
      exact iff_of_false (fun hw => nomatch hw) fun hw => h hw.2

theorem convertBoolean_ok (h : convertBoolean type v = .ok w) : ∃ b, w = .bool b := by
  unfold convertBoolean at h
  split at h
  · exact ⟨_, (Except.ok.inj h).symm⟩
  · split at h
    · exact ⟨_, (Except.ok.inj h).symm⟩
    · cases h
  · cases h

theorem convertChar_ok (h : convertChar type v = .ok w) : ∃ c, w = .string (String.ofList [c]) := by
  unfold convertChar at h
  split at h
  · rename_i s
    split at h
    · rename_i hs
      obtain ⟨c, hc⟩ := List.length_eq_one_iff.1 hs
      exact ⟨c, by rw [← Except.ok.inj h, ← hc, String.ofList_toList]⟩
    · cases h
  · cases h

theorem convertInteger_ok (h : convertInteger kind type v = .ok w) :
    ∃ n, boundedInt kind type n = .ok w := by
  unfold convertInteger at h
  split at h
  · split at h
    · exact ⟨_, h⟩
    · cases h
  · split at h
    · exact ⟨_, h⟩
    · cases h
  · split at h
    · exact ⟨_, h⟩
    · cases h
  · cases h

theorem convertFloat_ok (h : convertFloat kind type v = .ok w) :
    ∃ d, w = .double d ∧ (kind = .double ∨ d.fitsSingle = true) := by
  have hr : ∃ r, boundedFloat kind type r = .ok w := by
    unfold convertFloat at h
    split at h
    · exact ⟨_, h⟩
    · exact ⟨_, h⟩
    · split at h
      · exact ⟨_, h⟩
      · cases h
    · cases h
  obtain ⟨r, hr⟩ := hr
  obtain ⟨d, -, hd⟩ := boundedFloat_eq_ok_iff.1 hr
  exact ⟨d, hd⟩

theorem convertScalar_of_range {r : Int × Int} (hk : kind.range? = some r) :
    convertScalar kind type v = convertInteger kind type v := by
  cases kind <;> first | rfl | cases hk

theorem canonicalScalar_of_range {lo hi : Int} (hk : kind.range? = some (lo, hi)) :
    CanonicalScalar kind v ↔ ∃ n, v = .int n ∧ lo ≤ n ∧ n ≤ hi := by
  have h : CanonicalScalar kind v ↔
      ∃ n lo hi, v = .int n ∧ kind.range? = some (lo, hi) ∧ lo ≤ n ∧ n ≤ hi := by
    cases kind <;> first | rfl | cases hk
  rw [h]
  constructor
  · rintro ⟨n, lo', hi', rfl, hr, hn⟩
    cases hk.symm.trans hr
    exact ⟨n, rfl, hn⟩
  · rintro ⟨n, rfl, hn⟩
    exact ⟨n, lo, hi, rfl, hk, hn⟩

/-- Every integer scalar is within the signed 64-bit integers. -/
theorem isLong_of_range {n lo hi : Int} (hk : kind.range? = some (lo, hi)) (h : lo ≤ n ∧ n ≤ hi) :
    Width.isLong n = true := by
  have hl : Width.leastLong ≤ lo ∧ hi ≤ Width.greatestLong := by
    cases kind <;> cases hk <;> decide
  simp only [Width.isLong, Bool.and_eq_true, decide_eq_true_eq]
  omega

/-- The rules of a scalar: booleans, integers of a range, floats, characters. -/
theorem Scalar.range?_cases (kind : Scalar) :
    kind = .boolean ∨ (∃ lo hi, kind.range? = some (lo, hi)) ∨ (kind = .float ∨ kind = .double) ∨
      kind = .char := by
  cases kind <;> simp [Scalar.range?]

theorem convertScalar_canonical (h : convertScalar kind type v = .ok w) : CanonicalScalar kind w := by
  rcases kind.range?_cases with rfl | ⟨lo, hi, hk⟩ | hk | rfl
  · have h : convertBoolean type v = .ok w := h
    exact convertBoolean_ok h
  · rw [convertScalar_of_range hk] at h
    obtain ⟨n, hn⟩ := convertInteger_ok h
    exact (canonicalScalar_of_range hk).2 ⟨n, (boundedInt_eq_ok_iff hk).1 hn⟩
  · rcases hk with rfl | rfl
    · have h : convertFloat .float type v = .ok w := h
      obtain ⟨d, hw, hd⟩ := convertFloat_ok h
      exact ⟨d, hw, hd.resolve_left (by simp)⟩
    · have h : convertFloat .double type v = .ok w := h
      obtain ⟨d, hw, -⟩ := convertFloat_ok h
      exact ⟨d, hw⟩
  · have h : convertChar type v = .ok w := h
    exact convertChar_ok h

theorem convertScalar_of_canonical (h : CanonicalScalar kind w) : convertScalar kind type w = .ok w := by
  rcases kind.range?_cases with rfl | ⟨lo, hi, hk⟩ | hk | rfl
  · obtain ⟨b, rfl⟩ := h
    rfl
  · obtain ⟨n, rfl, hn⟩ := (canonicalScalar_of_range hk).1 h
    rw [convertScalar_of_range hk, convertInteger, if_pos (isLong_of_range hk hn)]
    exact (boundedInt_eq_ok_iff hk).2 ⟨rfl, hn⟩
  · rcases hk with rfl | rfl
    · obtain ⟨d, rfl, hd⟩ := h
      exact boundedFloat_eq_ok_iff.2 ⟨d, rfl, rfl, .inr hd⟩
    · obtain ⟨d, rfl⟩ := h
      have h : boundedFloat .double type (.finite d) = .ok (.double d) :=
        boundedFloat_eq_ok_iff.2 ⟨d, rfl, rfl, .inl rfl⟩
      exact h
  · obtain ⟨c, rfl⟩ := h
    simp [convertScalar, convertChar]

theorem CanonicalScalar.isNull (h : CanonicalScalar kind w) : w.isNull = false := by
  rcases kind.range?_cases with rfl | ⟨lo, hi, hk⟩ | hk | rfl
  · obtain ⟨b, rfl⟩ := h
    rfl
  · obtain ⟨n, rfl, -⟩ := (canonicalScalar_of_range hk).1 h
    rfl
  · rcases hk with rfl | rfl
    · obtain ⟨d, rfl, -⟩ := h
      rfl
    · obtain ⟨d, rfl⟩ := h
      rfl
  · obtain ⟨c, rfl⟩ := h
    rfl

/-! ## Properties -/

/-- What a property holds once it is filled from a source. -/
def held (source : List (String × Json)) (p : Property) : Json :=
  match Keyed.find? p.name source with
  | some v =>
    match convert p.type v with
    | .ok w => w
    | .error _ => defaultValue p.type
  | none => defaultValue p.type

/-- What a property of the type may hold: a canonical value, or null where nothing is canonical. -/
def Holds (t : ValueType) (v : Json) : Prop := Canonical t v ∨ (v = .null ∧ (t.isUnit ∨ t.isForeign))

theorem lastNamed?_cons (name : String) (p : Property) (ps : List Property) :
    lastNamed? name (p :: ps) =
      (lastNamed? name ps).or (if p.writable ∧ p.name = name then some p else none) := by
  unfold lastNamed?
  by_cases h : p.writable = true ∧ p.name = name
  · rw [List.filter_cons_of_pos (by simpa using h), List.getLast?_cons, if_pos h]
    cases (ps.filter fun p => p.writable && p.name = name).getLast? <;> rfl
  · rw [List.filter_cons_of_neg (by simpa using h), if_neg h, Option.or_none]

theorem mem_of_lastNamed? {name : String} {p : Property} {ps : List Property}
    (h : lastNamed? name ps = some p) : p ∈ ps ∧ p.writable = true ∧ p.name = name := by
  have hm := List.mem_filter.1 (List.mem_of_getLast? h)
  simpa using hm

/-- The property that counts under each name is the last writable one of that name. -/
theorem find?_fill (source : List (String × Json)) (ps : List Property)
    (acc : List (String × Json)) (name : String) :
    Keyed.find? name (fill source ps acc) =
      ((lastNamed? name ps).map (held source)).or (Keyed.find? name acc) := by
  induction ps generalizing acc with
  | nil => simp [fill, lastNamed?]
  | cons p ps ih =>
    obtain ⟨n, t, writable⟩ := p
    rw [lastNamed?_cons]
    cases writable with
    | false => simp [fill, ih]
    | true =>
      simp only [fill, ↓reduceIte, ih, Keyed.find?_insert, true_and]
      show _ = Option.or (Option.map _ (Option.or _ (if n = name then _ else _))) _
      cases lastNamed? name ps with
      | some q => rfl
      | none =>
        by_cases hn : n = name
        · simp only [hn, ↓reduceIte]
          rfl
        · simp [hn]

theorem sorted_fill (source : List (String × Json)) (ps : List Property)
    {acc : List (String × Json)} (h : Keyed.Sorted acc) : Keyed.Sorted (fill source ps acc) := by
  induction ps generalizing acc with
  | nil => exact h
  | cons p ps ih =>
    obtain ⟨n, t, writable⟩ := p
    cases writable with
    | false => exact ih h
    | true => exact ih (h.insert _ _)

theorem defaultValue_holds (t : ValueType) : Holds t (defaultValue t) := by
  cases t with
  | unit => exact .inr ⟨rfl, .inl rfl⟩
  | foreign => exact .inr ⟨rfl, .inr rfl⟩
  | primitive k =>
    left
    cases k with
    | boolean => exact ⟨false, rfl⟩
    | float => exact ⟨.zero false, rfl, Double.fitsSingle_zero false⟩
    | double => exact ⟨.zero false, rfl⟩
    | char => exact ⟨'\x00', rfl⟩
    | _ => exact ⟨0, _, _, rfl, rfl, by decide, by decide⟩
  | _ => exact .inl (.inl rfl)

theorem held_holds {p : Property} (h : ∀ v w, convert p.type v = .ok w → Canonical p.type w)
    (source : List (String × Json)) : Holds p.type (held source p) := by
  unfold held
  split
  · split
    · rename_i hw
      exact .inl (h _ _ hw)
    · exact defaultValue_holds p.type
  · exact defaultValue_holds p.type

/-- What a property may hold, it holds again when it is filled from that. -/
theorem held_eq_self {source : List (String × Json)} {p : Property}
    (h : ∀ w, Canonical p.type w → convert p.type w = .ok w)
    (hv : Keyed.find? p.name source = some v) (hh : Holds p.type v) : held source p = v := by
  rw [held, hv]
  rcases hh with hc | ⟨rfl, ht⟩
  · simp only [h v hc]
  · obtain ⟨n, t, writable⟩ := p
    cases t <;> simp [ValueType.isUnit, ValueType.isForeign] at ht <;> rfl

theorem canonicalFields_iff {fields : List (String × Json)} {ps : List Property} :
    CanonicalFields fields ps ↔ ∀ name p v, lastNamed? name ps = some p →
      Keyed.find? name fields = some v → Holds p.type v := by
  induction ps with
  | nil => simp [CanonicalFields, lastNamed?]
  | cons p ps ih =>
    obtain ⟨n, t, writable⟩ := p
    simp only [CanonicalFields, ih, lastNamed?_cons]
    constructor
    · rintro ⟨hhead, htail⟩ name p v hp hv
      cases hl : lastNamed? name ps with
      | some q =>
        rw [hl] at hp
        cases hp
        exact htail name _ v hl hv
      | none =>
        rw [hl, Option.none_or] at hp
        split at hp
        · rename_i hn
          obtain ⟨hw, rfl⟩ := hn
          cases hp
          exact hhead hw (by simp [hl]) v hv
        · cases hp
    · intro h
      refine ⟨fun hw hn v hv => ?_, fun name p v hp hv => ?_⟩
      · refine h n ⟨n, t, writable⟩ v ?_ hv
        rw [Option.isNone_iff_eq_none.1 hn]
        simp [hw]
      · exact h name p v (by rw [hp, Option.some_or]) hv

/-! ## All types -/

theorem convert_canonical (t : ValueType) (h : convert t v = .ok w) : Canonical t w := by
  induction t using ValueType.induction generalizing v w with
  | unit => simp [convert] at h
  | foreign n => simp [convert] at h
  | primitive k =>
    rw [convert] at h
    split at h
    · cases h
    · exact convertScalar_canonical h
  | boxed k =>
    rw [convert] at h
    split at h
    · exact .inl (Except.ok.inj h).symm
    · exact .inr (convertScalar_canonical h)
  | string =>
    rw [convert] at h
    split at h
    · exact .inl (Except.ok.inj h).symm
    · right
      unfold convertText at h
      split at h <;> first | exact ⟨_, (Except.ok.inj h).symm⟩ | cases h
  | enumeration n cs =>
    rw [convert] at h
    split at h
    · exact .inl (Except.ok.inj h).symm
    · right
      unfold convertConstant at h
      split at h
      · split at h
        · rename_i hs
          exact ⟨_, hs, (Except.ok.inj h).symm⟩
        · cases h
      · cases h
  | bean n ps ih =>
    cases v with
    | null => exact .inl (Except.ok.inj h).symm
    | object source =>
      right
      refine ⟨_, (Except.ok.inj h).symm, sorted_fill source ps .nil, fun name => ?_, ?_⟩
      · simp [find?_fill, Keyed.find?]
      · refine canonicalFields_iff.2 fun name p x hp hx => ?_
        rw [find?_fill, hp] at hx
        obtain rfl := Option.some.inj hx
        exact held_holds (fun _ _ => ih p (mem_of_lastNamed? hp).1) source
    | _ => simp [convert] at h

theorem convert_of_canonical (t : ValueType) (h : Canonical t w) : convert t w = .ok w := by
  induction t using ValueType.induction generalizing w with
  | unit => exact h.elim
  | foreign n => exact h.elim
  | primitive k =>
    have hs : CanonicalScalar k w := h
    rw [convert, if_neg (by simp [hs.isNull])]
    exact convertScalar_of_canonical hs
  | boxed k =>
    rcases h with rfl | hs
    · rfl
    · rw [convert, if_neg (by simp [hs.isNull])]
      exact convertScalar_of_canonical hs
  | string =>
    rcases h with rfl | ⟨s, rfl⟩ <;> rfl
  | enumeration n cs =>
    rcases h with rfl | ⟨s, hs, rfl⟩
    · rfl
    · simp [convert, convertConstant, Json.isNull, hs]
  | bean n ps ih =>
    rcases h with rfl | ⟨fields, rfl, hsorted, hkeys, hfields⟩
    · rfl
    · rw [convert]
      have hfill : fill fields ps [] = fields := by
        refine Keyed.Sorted.ext (sorted_fill fields ps .nil) hsorted fun name => ?_
        rw [find?_fill, Keyed.find?, Option.or_none]
        cases hp : lastNamed? name ps with
        | none =>
          have hn : ¬ (Keyed.find? name fields).isSome = true := by simp [hkeys, hp]
          exact (Option.not_isSome_iff_eq_none.1 hn).symm
        | some p =>
          obtain ⟨v, hv⟩ := Option.isSome_iff_exists.1 ((hkeys name).2 (by simp [hp]))
          obtain ⟨hm, -, rfl⟩ := mem_of_lastNamed? hp
          rw [hv, Option.map_some]
          exact congrArg some
            (held_eq_self (fun _ => ih p hm) hv (canonicalFields_iff.1 hfields _ p v hp hv))
      exact congrArg _ (congrArg _ hfill)

/-- Conversion to a type is a retraction onto the canonical values of the type: it yields nothing
else, leaves each of them as it is, and so changes nothing a second time. -/
theorem convert_retracts (t : ValueType) :
    (∀ v w, convert t v = .ok w → Canonical t w) ∧
    (∀ w, Canonical t w → convert t w = .ok w) ∧
    ∀ v w, convert t v = .ok w → convert t w = .ok w :=
  ⟨fun _ _ => convert_canonical t, fun _ => convert_of_canonical t,
    fun _ _ h => convert_of_canonical t (convert_canonical t h)⟩

/-- A bean with a bean in it, a read-only property, and two properties of one name. -/
def samplePerson : ValueType :=
  .bean "Person" [⟨"name", .string, true⟩, ⟨"id", .primitive .long, false⟩,
    ⟨"age", .primitive .int, true⟩, ⟨"name", .foreign "Text", true⟩,
    ⟨"address", .bean "Address" [⟨"zip", .primitive .short, true⟩], true⟩]

theorem convert_retracts_sample :
    ∃ v w, convert samplePerson v = .ok w ∧ Canonical samplePerson w ∧ convert samplePerson w = .ok w := by
  have h : convert samplePerson (.object [("address", .object [("zip", .int 40000)]), ("age", .int 36),
      ("id", .int 9), ("name", .string "Ada")]) =
      .ok (.object [("address", .object [("zip", .int 0)]), ("age", .int 36), ("name", .null)]) := rfl
  obtain ⟨hc, hk, -⟩ := convert_retracts samplePerson
  exact ⟨_, _, h, hc _ _ h, hk _ (hc _ _ h)⟩

end Switchboard.Rpc
