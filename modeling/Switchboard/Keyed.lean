/-!
# Entries in key order

A list of entries keyed by text, `Keyed.Sorted` by strictly ascending key.
`insert` replaces the entry of an equal key, so sorted lists that look up alike
are equal, and inserting entries in any order builds the one sorted list.
-/

namespace Switchboard.Keyed

variable {α : Type}

def Sorted (es : List (String × α)) : Prop := es.Pairwise fun a b => a.1 < b.1

def find? (key : String) : List (String × α) → Option α
  | [] => none
  | (k, a) :: es => if k = key then some a else find? key es

def insert (key : String) (value : α) : List (String × α) → List (String × α)
  | [] => [(key, value)]
  | (k, a) :: es =>
    if key < k then (key, value) :: (k, a) :: es
    else if key = k then (key, value) :: es
    else (k, a) :: insert key value es

def erase (key : String) : List (String × α) → List (String × α)
  | [] => []
  | (k, a) :: es => if k = key then es else (k, a) :: erase key es

def ofList (es : List (String × α)) : List (String × α) :=
  es.foldl (fun acc e => insert e.1 e.2 acc) []

/-! ## Sorted lists stay sorted -/

theorem sorted_nil : Sorted ([] : List (String × α)) := .nil

theorem mem_insert {e : String × α} {key : String} {value : α} {es : List (String × α)}
    (h : e ∈ insert key value es) : e = (key, value) ∨ e ∈ es := by
  induction es with
  | nil => simpa [insert] using h
  | cons d ds ih => grind [insert]

theorem Sorted.insert {es : List (String × α)} (h : Sorted es) (key : String) (value : α) :
    Sorted (Keyed.insert key value es) := by
  induction es with
  | nil => exact .cons (by simp) .nil
  | cons d ds ih =>
    obtain ⟨hd, hs⟩ := List.pairwise_cons.1 h
    simp only [Keyed.insert]
    split
    next lt =>
      refine .cons (fun e he => ?_) h
      rcases List.mem_cons.1 he with rfl | he
      · exact lt
      · exact String.lt_trans lt (hd e he)
    next ge =>
      split
      next eq => exact .cons (fun e he => eq ▸ hd e he) hs
      next ne =>
        refine .cons (fun e he => ?_) (ih hs)
        rcases mem_insert he with rfl | he
        · exact Decidable.byContradiction fun nlt =>
            ne (String.le_antisymm (String.not_lt.1 nlt) (String.not_lt.1 ge))
        · exact hd e he

theorem erase_sublist (key : String) (es : List (String × α)) : (erase key es).Sublist es := by
  induction es with
  | nil => exact .slnil
  | cons d ds ih =>
    simp only [erase]
    split
    · exact List.sublist_cons_self ..
    · exact ih.cons_cons d

theorem Sorted.erase {es : List (String × α)} (h : Sorted es) (key : String) :
    Sorted (Keyed.erase key es) :=
  List.Pairwise.sublist (erase_sublist key es) h

theorem sorted_ofList (es : List (String × α)) : Sorted (ofList es) := by
  suffices ∀ acc : List (String × α), Sorted acc →
      Sorted (es.foldl (fun acc e => Keyed.insert e.1 e.2 acc) acc) from this [] .nil
  induction es with
  | nil => exact fun _ h => h
  | cons e es ih => exact fun acc h => ih _ (h.insert e.1 e.2)

theorem Sorted.nodup {es : List (String × α)} (h : Sorted es) : (es.map Prod.fst).Nodup := by
  refine List.pairwise_map.2 (h.imp ?_)
  intro a b hlt heq
  exact String.lt_irrefl b.1 (heq ▸ hlt)

/-! ## Looking up -/

theorem isSome_find?_iff {key : String} {es : List (String × α)} :
    (find? key es).isSome = true ↔ key ∈ es.map Prod.fst := by
  induction es with
  | nil => simp [find?]
  | cons e es ih =>
    rw [find?, List.map_cons, List.mem_cons, ← ih]
    split
    · rename_i h
      simp [h]
    · rename_i h
      simp [Ne.symm h]

theorem find?_of_not_mem {key : String} {es : List (String × α)} (h : key ∉ es.map Prod.fst) :
    find? key es = none := by
  rwa [← isSome_find?_iff, Option.not_isSome_iff_eq_none] at h

theorem find?_of_mem {key : String} {value : α} {es : List (String × α)}
    (h : (es.map Prod.fst).Nodup) (hm : (key, value) ∈ es) : find? key es = some value := by
  induction es with
  | nil => cases hm
  | cons e es ih =>
    rw [List.map_cons, List.nodup_cons] at h
    rw [find?]
    rcases List.mem_cons.1 hm with rfl | hm
    · rw [if_pos rfl]
    · rw [if_neg fun heq : e.1 = key => h.1 (heq ▸ List.mem_map_of_mem hm), ih h.2 hm]

/-! ## Looking up after a change -/

theorem find?_insert (key k : String) (value : α) (es : List (String × α)) :
    find? k (insert key value es) = if key = k then some value else find? k es := by
  induction es with
  | nil => simp [insert, find?]
  | cons d ds ih => grind [insert, find?]

theorem find?_erase {es : List (String × α)} (h : (es.map Prod.fst).Nodup) (key k : String) :
    find? k (erase key es) = if key = k then none else find? k es := by
  induction es with
  | nil => simp [erase, find?]
  | cons d ds ih =>
    obtain ⟨hd, hds⟩ := List.nodup_cons.1 h
    have hnone : find? d.1 ds = none := find?_of_not_mem hd
    have ih := ih hds
    grind [erase, find?]

theorem find?_filter_ne (key k : String) (es : List (String × α)) :
    find? k (es.filter (·.1 ≠ key)) = if key = k then none else find? k es := by
  induction es with
  | nil => simp [find?]
  | cons d ds ih => grind [find?]

/-- Entries under distinct keys are all found, in whatever order they came. -/
theorem find?_ofList {key : String} {es : List (String × α)} (h : (es.map Prod.fst).Nodup) :
    find? key (ofList es) = find? key es := by
  suffices ∀ acc, find? key (es.foldl (fun acc e => insert e.1 e.2 acc) acc) =
      (find? key es).or (find? key acc) by simpa [ofList, find?] using this []
  induction es with
  | nil => exact fun acc => rfl
  | cons e es ih =>
    intro acc
    rw [List.map_cons, List.nodup_cons] at h
    rw [List.foldl_cons, ih h.2, find?_insert, find?]
    split
    next heq => rw [find?_of_not_mem (heq ▸ h.1), Option.none_or, Option.some_or]
    next => rfl

/-! ## Equality by looking up -/

theorem find?_eq_none {key : String} {es : List (String × α)} (h : ∀ e ∈ es, key < e.1) :
    find? key es = none := by
  induction es with
  | nil => rfl
  | cons e es ih =>
    obtain ⟨he, hes⟩ := List.forall_mem_cons.1 h
    have hne : e.1 ≠ key := fun eq => String.lt_irrefl key (eq ▸ he)
    simp only [find?, hne, ↓reduceIte]
    exact ih hes

theorem Sorted.ext {es fs : List (String × α)} (hes : Sorted es) (hfs : Sorted fs)
    (h : ∀ key, find? key es = find? key fs) : es = fs := by
  induction es generalizing fs with
  | nil =>
    cases fs with
    | nil => rfl
    | cons f fs => simpa [find?] using h f.1
  | cons e es ih =>
    obtain ⟨he, hes'⟩ := List.pairwise_cons.1 hes
    cases fs with
    | nil => simpa [find?] using h e.1
    | cons f fs =>
      obtain ⟨hf, hfs'⟩ := List.pairwise_cons.1 hfs
      -- The lesser of the two first keys would not be found in the other list.
      have hle : ¬ e.1 < f.1 := by
        intro lt
        have hn : find? e.1 (f :: fs) = none := find?_eq_none <|
          List.forall_mem_cons.2 ⟨lt, fun d hd => String.lt_trans lt (hf d hd)⟩
        have he' := hn ▸ h e.1
        simp [find?] at he'
      have hge : ¬ f.1 < e.1 := by
        intro lt
        have hn : find? f.1 (e :: es) = none := find?_eq_none <|
          List.forall_mem_cons.2 ⟨lt, fun d hd => String.lt_trans lt (he d hd)⟩
        have hf' := hn ▸ h f.1
        simp [find?] at hf'
      have hk : e.1 = f.1 := String.le_antisymm (String.not_lt.1 hge) (String.not_lt.1 hle)
      have hv : e.2 = f.2 := by simpa [find?, hk] using h e.1
      rw [show e = f from Prod.ext hk hv, ih hes' hfs' fun key => ?_]
      by_cases hkey : e.1 = key
      · subst hkey
        rw [find?_eq_none he, find?_eq_none (hk ▸ hf)]
      · have hkey' : f.1 ≠ key := hk ▸ hkey
        simpa only [find?, hkey, hkey', ↓reduceIte] using h key

theorem Sorted.ofList_eq {es : List (String × α)} (h : Sorted es) : ofList es = es :=
  (sorted_ofList es).ext h fun _ => find?_ofList h.nodup

end Switchboard.Keyed
