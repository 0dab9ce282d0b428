import DataGrid.Entity.ScoreTable
import DataGrid.Proofs.Entity.Told

/-!
# Effects — what operations on values add, remove and report

Adding reports the listed members that were new and removing the ones that were there, each once
and whatever the repeats in the list. What is left has the members that it should. Storing scores
stores every pair in turn and reports the ones that were changes.
-/

namespace DataGrid

namespace SetValue

variable {s : SetValue} {members : List Bytes} {m : Bytes}

theorem mem_addNew : m ∈ (addNew s members).2 ↔ m ∈ members ∧ s.contains m = false := by
  induction members generalizing s with
  | nil => simp [addNew]
  | cons n rest ih =>
    rw [addNew]
    split
    · next hn =>
      rw [ih]
      by_cases hm : m = n <;> simp [hm, hn]
    · next hn =>
      rw [List.mem_cons, ih, OrdSet.contains_insert]
      by_cases hm : m = n <;> simp [hm, hn]

theorem nodup_addNew (s : SetValue) (members : List Bytes) : (addNew s members).2.Nodup := by
  induction members generalizing s with
  | nil => exact .nil
  | cons n rest ih =>
    rw [addNew]
    split
    · exact ih s
    · refine List.nodup_cons.2 ⟨fun hn => ?_, ih (s.insert n)⟩
      have hnew := (mem_addNew.1 hn).2
      rw [OrdSet.contains_insert, decide_eq_true rfl] at hnew
      cases hnew

theorem contains_addNew (s : SetValue) (members : List Bytes) (m : Bytes) :
    (addNew s members).1.contains m = (decide (m ∈ members) || s.contains m) := by
  simp only [addNew_eq, OrdSet.contains_insertAll, mem_addNew]
  by_cases hm : s.contains m <;> simp [hm]

theorem mem_removePresent : m ∈ (removePresent s members).2 ↔ m ∈ members ∧ s.contains m := by
  induction members generalizing s with
  | nil => simp [removePresent]
  | cons n rest ih =>
    rw [removePresent]
    split
    · next hn =>
      rw [List.mem_cons, ih, OrdSet.contains_erase]
      by_cases hm : m = n <;> simp [hm, hn]
    · next hn =>
      rw [ih]
      by_cases hm : m = n <;> simp [hm, hn]

theorem nodup_removePresent (s : SetValue) (members : List Bytes) :
    (removePresent s members).2.Nodup := by
  induction members generalizing s with
  | nil => exact .nil
  | cons n rest ih =>
    rw [removePresent]
    split
    · refine List.nodup_cons.2 ⟨fun hn => ?_, ih (s.erase n)⟩
      have hthere := (mem_removePresent.1 hn).2
      rw [OrdSet.contains_erase] at hthere
      simp at hthere
    · exact ih s

theorem contains_removePresent (s : SetValue) (members : List Bytes) (m : Bytes) :
    (removePresent s members).1.contains m = (decide (m ∉ members) && s.contains m) := by
  simp only [removePresent_eq, OrdSet.contains_eraseAll, mem_removePresent]
  by_cases hm : s.contains m <;> simp [hm]

end SetValue

namespace ScoreTable

variable {z : ScoreTable} {members : List Bytes} {m : Bytes}

theorem get?_removePresent (z : ScoreTable) (members : List Bytes) (m : Bytes) :
    (removePresent z members).1.get? m = if m ∈ members then none else z.get? m := by
  induction members generalizing z with
  | nil => simp [removePresent]
  | cons n rest ih =>
    rw [removePresent]
    split
    · rw [ih, OrdMap.get?_erase]
      by_cases hm : m = n <;> simp [hm]
    · next hn =>
      rw [ih]
      by_cases hm : m = n
      · subst hm
        have hnone : z.get? m = none := by simpa [OrdMap.contains_eq] using hn
        simp [hnone]
      · simp [hm]

theorem mem_removePresent : m ∈ (removePresent z members).2 ↔ m ∈ members ∧ z.contains m := by
  induction members generalizing z with
  | nil => simp [removePresent]
  | cons n rest ih =>
    rw [removePresent]
    split
    · next hn =>
      rw [List.mem_cons, ih, OrdMap.contains_eq, OrdMap.get?_erase]
      by_cases hm : m = n <;> simp [hm, hn, ← OrdMap.contains_eq]
    · next hn =>
      rw [ih]
      by_cases hm : m = n <;> simp [hm, hn]

theorem nodup_removePresent (z : ScoreTable) (members : List Bytes) :
    (removePresent z members).2.Nodup := by
  induction members generalizing z with
  | nil => exact .nil
  | cons n rest ih =>
    rw [removePresent]
    split
    · refine List.nodup_cons.2 ⟨fun hn => ?_, ih (z.erase n)⟩
      have hthere := (mem_removePresent.1 hn).2
      rw [OrdMap.contains_eq, OrdMap.get?_erase_self] at hthere
      cases hthere
    · exact ih z

end ScoreTable

end DataGrid
