import DataGrid.Ordered.Map

/-!
# Ordered sets — values in ascending order, each once

An ordered set is an ordered map to nothing. Sets with the same members are equal
(`OrdSet.ext_contains`), and `toList` lists the members in ascending order.
-/

namespace DataGrid

/-- A set with ascending members. -/
structure OrdSet (κ : Type) [Ord κ] where
  map : OrdMap κ Unit

namespace OrdSet

variable {κ : Type} [Ord κ]

instance [DecidableEq κ] : DecidableEq (OrdSet κ) := fun a b =>
  if h : a.map = b.map then isTrue (by cases a; cases b; cases h; rfl)
  else isFalse (fun e => h (e ▸ rfl))

/-- The set without members. -/
def empty : OrdSet κ := ⟨.empty⟩

instance : Inhabited (OrdSet κ) := ⟨empty⟩

/-- Whether a value is a member. -/
def contains (s : OrdSet κ) (k : κ) : Bool := s.map.contains k

/-- The members, ascending. -/
def toList (s : OrdSet κ) : List κ := s.map.keys

/-- The number of members. -/
def size (s : OrdSet κ) : Nat := s.map.size

/-- Whether there are no members. -/
def isEmpty (s : OrdSet κ) : Bool := s.map.isEmpty

/-- The members that a test keeps. -/
def filter (s : OrdSet κ) (keep : κ → Bool) : OrdSet κ := ⟨s.map.filter fun k _ => keep k⟩

/-- The set without a value. -/
def erase (s : OrdSet κ) (k : κ) : OrdSet κ := ⟨s.map.erase k⟩

/-- The set without any of the listed values. -/
def eraseAll (s : OrdSet κ) (l : List κ) : OrdSet κ := l.foldl erase s

@[simp] theorem contains_empty (k : κ) : (empty : OrdSet κ).contains k = false := rfl

variable [Std.TransOrd κ]

/-- The set with a value. -/
def insert (s : OrdSet κ) (k : κ) : OrdSet κ := ⟨s.map.insert k ()⟩

/-- The set with all of the listed values. -/
def insertAll (s : OrdSet κ) (l : List κ) : OrdSet κ := l.foldl insert s

/-- The set of the listed values. -/
def ofList (l : List κ) : OrdSet κ := empty.insertAll l

variable [Std.LawfulEqOrd κ] [DecidableEq κ]

@[simp] theorem contains_insert (s : OrdSet κ) (k j : κ) :
    (s.insert k).contains j = (j = k || s.contains j) := by
  simp only [contains, insert, OrdMap.contains, OrdMap.get?_insert]
  by_cases h : j = k <;> simp [h]

@[simp] theorem contains_erase (s : OrdSet κ) (k j : κ) :
    (s.erase k).contains j = (j ≠ k && s.contains j) := by
  simp only [contains, erase, OrdMap.contains, OrdMap.get?_erase]
  by_cases h : j = k <;> simp [h]

@[simp] theorem contains_insertAll (s : OrdSet κ) (l : List κ) (j : κ) :
    (s.insertAll l).contains j = (decide (j ∈ l) || s.contains j) := by
  induction l generalizing s with
  | nil => simp [insertAll]
  | cons k l ih =>
    rw [insertAll, List.foldl_cons]
    refine (ih (s.insert k)).trans ?_
    by_cases h : j = k <;> simp [h]

@[simp] theorem contains_eraseAll (s : OrdSet κ) (l : List κ) (j : κ) :
    (s.eraseAll l).contains j = (decide (j ∉ l) && s.contains j) := by
  induction l generalizing s with
  | nil => simp [eraseAll]
  | cons k l ih =>
    rw [eraseAll, List.foldl_cons]
    refine (ih (s.erase k)).trans ?_
    by_cases h : j = k <;> simp [h]

@[simp] theorem contains_ofList (l : List κ) (j : κ) :
    (ofList l).contains j = decide (j ∈ l) := by
  simp [ofList]

omit [DecidableEq κ] in
/-- **Sets with the same members are equal.** -/
theorem ext_contains {a b : OrdSet κ} (h : ∀ k, a.contains k = b.contains k) : a = b := by
  obtain ⟨a⟩ := a
  obtain ⟨b⟩ := b
  congr 1
  refine OrdMap.ext_get? fun k => ?_
  have hk := h k
  simp only [contains, OrdMap.contains] at hk
  cases ha : a.get? k <;> cases hb : b.get? k <;> simp_all

omit [DecidableEq κ] in
/-- The listed members are the members. -/
theorem mem_toList {s : OrdSet κ} {k : κ} : k ∈ s.toList ↔ s.contains k := by
  simp only [toList, OrdMap.keys, List.mem_map, contains, OrdMap.contains,
    Option.isSome_iff_exists, OrdMap.get?_eq_some_iff]
  constructor
  · rintro ⟨⟨_, v⟩, h, rfl⟩
    exact ⟨v, h⟩
  · rintro ⟨v, h⟩
    exact ⟨_, h, rfl⟩

end OrdSet

end DataGrid
