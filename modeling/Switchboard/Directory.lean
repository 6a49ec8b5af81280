/-!
# Directories

Entries under names, in the order in which the names first came in. Putting an
entry under a name that is taken replaces the old one at its place. Where nothing
fixes the order in which the items are gone through, a `Walk` stands for it.
-/

namespace Switchboard

abbrev Directory (α : Type) := List (String × α)

namespace Directory

variable {α : Type}

def find? (name : String) : Directory α → Option α
  | [] => none
  | (n, a) :: d => if n = name then some a else find? name d

def put (name : String) (a : α) : Directory α → Directory α
  | [] => [(name, a)]
  | (n, b) :: d => if n = name then (name, a) :: d else (n, b) :: put name a d

def erase (name : String) : Directory α → Directory α
  | [] => []
  | (n, b) :: d => if n = name then d else (n, b) :: erase name d

def names (d : Directory α) : List String := d.map (·.1)

def values (d : Directory α) : List α := d.map (·.2)

/-- An order in which items are gone through. -/
structure Walk (α : Type) where
  order : List α → List α
  perm : ∀ items, (order items).Perm items

instance : Inhabited (Walk α) := ⟨⟨id, .refl⟩⟩

theorem Walk.mem_order {w : Walk α} {items : List α} {a : α} : a ∈ w.order items ↔ a ∈ items :=
  (w.perm items).mem_iff

/-! ## Reading after a change -/

theorem find?_put (name key : String) (a : α) (d : Directory α) :
    find? key (put name a d) = if name = key then some a else find? key d := by
  induction d with
  | nil => simp [put, find?]
  | cons e d ih => grind [put, find?]

/-- A new name comes last; a name that is taken keeps its place. -/
theorem names_put (name : String) (a : α) (d : Directory α) :
    names (put name a d) = if name ∈ names d then names d else names d ++ [name] := by
  induction d with
  | nil => simp [put, names]
  | cons e d ih => simp only [names] at ih; grind [put, names]

theorem erase_sublist (name : String) (d : Directory α) : (erase name d).Sublist d := by
  induction d with
  | nil => exact .slnil
  | cons e d ih =>
    simp only [erase]
    split
    · exact List.sublist_cons_self ..
    · exact ih.cons_cons e

theorem nodup_names_put {d : Directory α} (h : (names d).Nodup) (name : String) (a : α) :
    (names (put name a d)).Nodup := by
  rw [names_put]
  split
  next => exact h
  next hn => exact List.nodup_append.2 ⟨h, by simp, by rintro n hm _ hs rfl; grind⟩

theorem mem_of_find? {name : String} {a : α} {d : Directory α} (h : find? name d = some a) :
    (name, a) ∈ d := by
  induction d with
  | nil => simp [find?] at h
  | cons e d ih => grind [find?]

theorem find?_eq_none {name : String} {d : Directory α} (h : name ∉ names d) :
    find? name d = none := by
  cases hf : find? name d with
  | none => rfl
  | some a => exact absurd (List.mem_map.2 ⟨_, mem_of_find? hf, rfl⟩) h

theorem put_eq_append {name : String} {d : Directory α} (h : name ∉ names d) (a : α) :
    put name a d = d ++ [(name, a)] := by
  induction d with
  | nil => rfl
  | cons e d ih =>
    simp only [names, List.map_cons, List.mem_cons, not_or] at h
    rw [put, if_neg fun he => h.1 he.symm, ih h.2, List.cons_append]

theorem put_append_cons {name : String} {before : Directory α} (h : name ∉ names before) (a b : α)
    (after : Directory α) : put name a (before ++ (name, b) :: after) = before ++ (name, a) :: after := by
  induction before with
  | nil => simp [put]
  | cons e before ih =>
    simp only [names, List.map_cons, List.mem_cons, not_or] at h
    rw [List.cons_append, put, if_neg fun he => h.1 he.symm, ih h.2, List.cons_append]

theorem erase_append_cons {name : String} {before : Directory α} (h : name ∉ names before) (a : α)
    (after : Directory α) : erase name (before ++ (name, a) :: after) = before ++ after := by
  induction before with
  | nil => simp [erase]
  | cons e before ih =>
    simp only [names, List.map_cons, List.mem_cons, not_or] at h
    rw [List.cons_append, erase, if_neg fun he => h.1 he.symm, ih h.2, List.cons_append]

theorem erase_eq_self {name : String} {d : Directory α} (h : find? name d = none) : erase name d = d := by
  induction d with
  | nil => rfl
  | cons e d ih => grind [find?, erase]

theorem put_eq_self {name : String} {a : α} {d : Directory α} (h : find? name d = some a) :
    put name a d = d := by
  induction d with
  | nil => cases h
  | cons e d ih => grind [find?, put]

/-- The entries under other names stay as they are. -/
theorem filter_put (name : String) (a : α) (d : Directory α) :
    (put name a d).filter (fun e => e.1 ≠ name) = d.filter fun e => e.1 ≠ name := by
  induction d with
  | nil => simp [put]
  | cons e d ih =>
    by_cases h : e.1 = name
    · simp [put, h]
    · rw [put, if_neg h, List.filter_cons, List.filter_cons, ih]

/-- Where names are distinct, an entry is what is found under its name. -/
theorem find?_eq_some_iff {name : String} {a : α} {d : Directory α} (h : (names d).Nodup) :
    find? name d = some a ↔ (name, a) ∈ d := by
  refine ⟨mem_of_find?, fun hm => ?_⟩
  induction d with
  | nil => cases hm
  | cons e d ih =>
    obtain ⟨hn, hd⟩ := List.nodup_cons.1 h
    rcases List.mem_cons.1 hm with rfl | hm
    · simp [find?]
    · have hne : e.1 ≠ name := by
        rintro rfl
        exact hn (List.mem_map.2 ⟨_, hm, rfl⟩)
      simp only [find?, hne, ↓reduceIte]
      exact ih hd hm

theorem find?_erase {name key : String} {d : Directory α} (h : (names d).Nodup) :
    find? key (erase name d) = if name = key then none else find? key d := by
  induction d with
  | nil => simp [erase, find?]
  | cons e d ih =>
    obtain ⟨hn, hd⟩ := List.nodup_cons.1 h
    have hnone : find? e.1 d = none := find?_eq_none hn
    have ih := ih hd
    grind [erase, find?]

theorem erase_eq_filter {d : Directory α} (h : (names d).Nodup) (name : String) :
    erase name d = d.filter fun e => e.1 ≠ name := by
  induction d with
  | nil => rfl
  | cons e d ih =>
    obtain ⟨hn, hd⟩ := List.nodup_cons.1 h
    by_cases he : e.1 = name
    · have hrest : ∀ e' ∈ d, e'.1 ≠ name := fun e' he' heq =>
        hn (List.mem_map.2 ⟨e', he', heq.trans he.symm⟩)
      rw [erase, if_pos he, List.filter_cons_of_neg (by simpa using he),
        List.filter_eq_self.2 (by simpa using hrest)]
    · rw [erase, if_neg he, ih hd, List.filter_cons_of_pos (by simpa using he)]

/-- A value that is put in takes the place of the one under its name, which goes. -/
theorem mem_values_put (name : String) (a b : α) (d : Directory α) :
    b ∈ values (put name a d) ∨ find? name d = some b ↔ b = a ∨ b ∈ values d := by
  induction d with
  | nil => simp [put, values, find?]
  | cons e d ih =>
    obtain ⟨n, c⟩ := e
    simp only [values] at ih ⊢
    by_cases h : n = name
    · simp only [put, find?, h, ↓reduceIte, List.map_cons, List.mem_cons, Option.some.injEq]
      grind
    · simp only [put, find?, h, ↓reduceIte, List.map_cons, List.mem_cons]
      grind

theorem mem_values_erase (name : String) {b : α} {d : Directory α} (h : b ∈ values d) :
    b ∈ values (erase name d) ∨ find? name d = some b := by
  induction d with
  | nil => simp [values] at h
  | cons e d ih =>
    obtain ⟨n, c⟩ := e
    simp only [values, List.map_cons, List.mem_cons] at ih h ⊢
    by_cases hn : n = name
    · simp only [erase, find?, hn, ↓reduceIte]
      grind
    · simp only [erase, find?, hn, ↓reduceIte, List.map_cons, List.mem_cons]
      grind

/-! ## Order -/

/-- Of two entries that are in both, the one that is first in `d` is first in `d'`. -/
def KeepsOrder (d d' : Directory α) : Prop :=
  ∀ a b, a ∈ d' → b ∈ d' → [a, b].Sublist d → [a, b].Sublist d'

theorem keepsOrder_refl (d : Directory α) : KeepsOrder d d := fun _ _ _ _ h => h

/-- What is in both and is not left aside stands there in the same order. -/
theorem keepsOrder_of_filter {d d' : Directory α} {keep : String × α → Bool}
    (h : d'.filter keep = d.filter keep) (hk : ∀ e ∈ d, e ∈ d' → keep e = true) : KeepsOrder d d' := by
  intro a b ha hb hab
  have ha' : keep a = true := hk a (hab.mem (by simp)) ha
  have hb' : keep b = true := hk b (hab.mem (by simp)) hb
  have hf : ([a, b].filter keep).Sublist (d.filter keep) := hab.filter keep
  rw [List.filter_cons_of_pos ha', List.filter_cons_of_pos hb', List.filter_nil, ← h] at hf
  exact hf.trans List.filter_sublist

theorem keepsOrder_filter (d : Directory α) (keep : String × α → Bool) : KeepsOrder d (d.filter keep) := by
  have hagain : (d.filter keep).filter keep = d.filter keep := by simp
  exact keepsOrder_of_filter hagain fun _ _ he => (List.mem_filter.1 he).2

theorem keepsOrder_put {d : Directory α} (h : (names d).Nodup) (name : String) (a : α) :
    KeepsOrder d (put name a d) := by
  by_cases ha : find? name d = some a
  · rw [put_eq_self ha]
    exact keepsOrder_refl d
  · refine keepsOrder_of_filter (filter_put name a d) fun e he hp => ?_
    rw [decide_eq_true_eq]
    rintro rfl
    -- What is there after the put is the new value, which was not there before.
    have hn : find? e.1 (put e.1 a d) = some e.2 :=
      (find?_eq_some_iff (nodup_names_put h e.1 a)).2 hp
    rw [find?_put, if_pos rfl] at hn
    rw [Option.some.inj hn] at ha
    exact ha ((find?_eq_some_iff h).2 he)

theorem keepsOrder_erase {d : Directory α} (h : (names d).Nodup) (name : String) :
    KeepsOrder d (erase name d) := by
  rw [erase_eq_filter h]
  exact keepsOrder_filter d _

end Directory
end Switchboard
