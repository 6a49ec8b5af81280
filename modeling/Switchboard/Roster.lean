/-!
# Rosters

Items numbered in the order in which they were added. Numbers stay valid: items
are changed in place and never removed.
-/

namespace Switchboard

structure Roster (α : Type) where
  items : List α := []

namespace Roster

variable {α : Type}

instance : Inhabited (Roster α) := ⟨{}⟩

def size (r : Roster α) : Nat := r.items.length

def get? (r : Roster α) (i : Nat) : Option α := r.items[i]?

def getD (r : Roster α) (i : Nat) (fallback : α) : α := (r.get? i).getD fallback

def add (r : Roster α) (a : α) : Roster α := ⟨r.items ++ [a]⟩

def update (r : Roster α) (i : Nat) (f : α → α) : Roster α := ⟨r.items.modify i f⟩

/-! ## Reading after a change -/

@[simp] theorem size_add (r : Roster α) (a : α) : (r.add a).size = r.size + 1 := by
  simp [size, add]

@[simp] theorem size_update (r : Roster α) (i : Nat) (f : α → α) : (r.update i f).size = r.size := by
  simp [size, update]

theorem get?_add (r : Roster α) (a : α) (j : Nat) :
    (r.add a).get? j = if j = r.size then some a else r.get? j := by
  show (r.items ++ [a])[j]? = if j = r.items.length then some a else r.items[j]?
  by_cases h : j = r.items.length
  · simp [h]
  · rw [if_neg h]
    by_cases lt : j < r.items.length
    · exact List.getElem?_append_left lt
    · rw [List.getElem?_eq_none (by simp; omega), List.getElem?_eq_none (by omega)]

theorem get?_update (r : Roster α) (i j : Nat) (f : α → α) :
    (r.update i f).get? j = if i = j then (r.get? j).map f else r.get? j := by
  simp only [get?, update, List.getElem?_modify]
  split <;> simp

theorem getD_update (r : Roster α) (i j : Nat) (f : α → α) (a : α) :
    (r.update i f).getD j a = if i = j ∧ i < r.size then f (r.getD j a) else r.getD j a := by
  simp only [getD, get?_update]
  by_cases h : i = j
  · subst h
    by_cases hlt : i < r.size
    · simp only [get?, List.getElem?_eq_getElem hlt]
      simp [hlt]
    · have hn : r.get? i = none := List.getElem?_eq_none (Nat.le_of_not_lt hlt)
      simp [hn, hlt]
  · simp [h]

theorem getD_of_le (r : Roster α) {j : Nat} (h : r.size ≤ j) (a : α) : r.getD j a = a := by
  rw [getD, get?, List.getElem?_eq_none h, Option.getD_none]

theorem isSome_get? (r : Roster α) (i : Nat) : (r.get? i).isSome = true ↔ i < r.size := by
  rw [get?, size, Option.isSome_iff_exists]
  constructor
  · rintro ⟨a, ha⟩
    exact (List.getElem?_eq_some_iff.1 ha).1
  · exact fun h => ⟨_, List.getElem?_eq_getElem h⟩

theorem lt_size_of_get? {r : Roster α} {i : Nat} {a : α} (h : r.get? i = some a) : i < r.size :=
  (List.getElem?_eq_some_iff.1 h).1

end Roster
end Switchboard
