import DataGrid.Proofs.Entity.Alike

/-!
# Told — what the deltas of values say

An operation on a value makes the value that is left and a delta for the others, or no delta. The
delta lists only what changed, and that is enough: applied to the value before, it makes one alike
to the value after, and without a delta nothing has changed but the sign of a zero
(`Content.Told`).
-/

namespace DataGrid

/-- What the delta of an operation on a value promises of the contents before and after. Without a
delta they are alike. -/
def Content.Told (before after : Content) : Option Delta → Prop
  | none => before.Alike after
  | some d => ∃ repeated, before.apply d = (.ok (), repeated) ∧ after.Alike repeated

namespace SetValue

/-- The members that were new make the set that adding makes. -/
theorem addNew_eq (s : SetValue) (members : List Bytes) :
    (addNew s members).1 = s.insertAll (addNew s members).2 := by
  induction members generalizing s with
  | nil => rfl
  | cons m rest ih =>
    rw [addNew]
    split
    · exact ih s
    · exact ih (s.insert m)

theorem removePresent_eq (s : SetValue) (members : List Bytes) :
    (removePresent s members).1 = s.eraseAll (removePresent s members).2 := by
  induction members generalizing s with
  | nil => rfl
  | cons m rest ih =>
    rw [removePresent]
    split
    · exact ih (s.erase m)
    · exact ih s

theorem eraseAll_toList (s : SetValue) : s.eraseAll s.toList = .empty :=
  OrdSet.ext_contains fun k => by
    have hmem : k ∈ s.toList ↔ s.contains k := OrdSet.mem_toList
    rw [OrdSet.contains_eraseAll]
    by_cases hk : k ∈ s.toList
    · simp [hk]
    · have hnot : s.contains k = false := Bool.eq_false_iff.2 fun hc => hk (hmem.2 hc)
      simp [hnot]

theorem add_told (s : SetValue) (members : List Bytes) :
    Content.Told (.set s) (.set (s.add members).1) (s.add members).2 := by
  have heq := s.addNew_eq members
  simp only [add]
  split
  · next hempty =>
    rw [List.isEmpty_iff.1 hempty] at heq
    exact heq.symm
  · exact ⟨_, rfl, heq⟩

theorem remove_told (s : SetValue) (members : List Bytes) :
    Content.Told (.set s) (.set (s.remove members).1) (s.remove members).2 := by
  have heq := s.removePresent_eq members
  simp only [remove]
  split
  · next hempty =>
    rw [List.isEmpty_iff.1 hempty] at heq
    exact heq.symm
  · exact ⟨_, rfl, heq⟩

theorem pop_told (s : SetValue) (count : Nat) (chosen : List Bytes) :
    Content.Told (.set s) (.set (s.pop count chosen).1) (s.pop count chosen).2.2 := by
  unfold pop
  split
  · exact Content.Alike.refl (.set s)
  split
  · exact ⟨_, rfl, s.eraseAll_toList.symm⟩
  · exact ⟨_, rfl, rfl⟩

end SetValue

theorem StringValue.append_told (s : StringValue) (octets : Bytes) :
    Content.Told (.string s) (.string (s.append octets).1) (some (s.append octets).2.2) := by
  have hnext : Content.applyAppend s (s.sequence + 1) octets = (.ok (), (s.append octets).1) :=
    if_pos rfl
  refine ⟨.string (s.append octets).1, ?_, .refl _⟩
  show Content.apply (.string s) (.append (s.sequence + 1) octets) = _
  rw [Content.apply, hnext]

namespace ScoreTable

/-- The pairs that were changes make the table that storing makes, up to signs of zeros. -/
theorem storeAll_alike {z z' : ScoreTable} (h : z.Alike z') (pairs : List (Bytes × Binary64)) :
    ScoreTable.Alike (storeAll z pairs).1
      ((storeAll z pairs).2.foldl (fun z pair => z.insert pair.1 pair.2) z') := by
  induction pairs generalizing z z' with
  | nil => exact h
  | cons pair rest ih =>
    obtain ⟨m, score⟩ := pair
    simp only [storeAll]
    split
    · exact ih (h.insert m (.refl score))
    · next hchange =>
      -- The score that stood there is the same number, so the copy may keep its own.
      refine ih fun j => ?_
      rw [OrdMap.get?_insert]
      split
      · next hj =>
        subst hj
        have hj := h j
        cases hz : z.get? j with
        | none => rw [hz] at hchange; simp [isChange] at hchange
        | some x =>
          have hsame : x.sameNumber score := by simpa [isChange, hz] using hchange
          rw [hz] at hj
          obtain ⟨y, hy, hxy⟩ := eq_some_of_rel hj
          rw [hy]
          exact .some ((Binary64.Alike.of_sameNumber hsame).symm.trans hxy)
      · exact h j

theorem removePresent_eq (z : ScoreTable) (members : List Bytes) :
    (removePresent z members).1 = (removePresent z members).2.foldl OrdMap.erase z := by
  induction members generalizing z with
  | nil => rfl
  | cons m rest ih =>
    rw [removePresent]
    split
    · exact ih (z.erase m)
    · exact ih z

theorem add_told (z : ScoreTable) (pairs : List (Bytes × Binary64)) :
    Content.Told (.sortedSet z) (.sortedSet (z.add pairs).1) (z.add pairs).2 := by
  have halike := storeAll_alike (.refl z) pairs
  simp only [add]
  split
  · next hempty =>
    rw [List.isEmpty_iff.1 hempty] at halike
    exact halike.symm
  · exact ⟨_, rfl, halike⟩

theorem remove_told (z : ScoreTable) (members : List Bytes) :
    Content.Told (.sortedSet z) (.sortedSet (z.remove members).1) (z.remove members).2 := by
  have heq := z.removePresent_eq members
  simp only [remove]
  split
  · next hempty =>
    rw [List.isEmpty_iff.1 hempty] at heq
    exact heq ▸ ScoreTable.Alike.refl z
  · refine ⟨_, rfl, ?_⟩
    rw [heq]
    exact .refl _

end ScoreTable

end DataGrid
