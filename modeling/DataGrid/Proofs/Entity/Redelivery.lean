import DataGrid.Proofs.Entity.Appends
import DataGrid.Proofs.Ordered.Setting
import Mathlib.Data.List.Destutter

/-!
# Redelivery — deltas that arrive again at once

A delta says what to make of an entity, and an entity that it was made of already stays as it is:
members that are there are not added twice, scores that are stored are stored again bit for bit,
and a string knows its last append (`Content.apply_again`). A delta that was refused has changed
nothing, so it is refused again for the same reason. So a delivery that is repeated at once leaves
the same entity and is answered in the same way, whatever the entity and the delta are
(`Entity.receive_again`).
-/

namespace DataGrid

/-! ## Members and scores -/

namespace OrdSet

variable {κ : Type} [Ord κ] [Std.TransOrd κ] [Std.LawfulEqOrd κ] [DecidableEq κ]

theorem insertAll_again (s : OrdSet κ) (l : List κ) : (s.insertAll l).insertAll l = s.insertAll l :=
  ext_contains fun k => by
    rw [contains_insertAll, contains_insertAll, ← Bool.or_assoc, Bool.or_self]

theorem eraseAll_again (s : OrdSet κ) (l : List κ) : (s.eraseAll l).eraseAll l = s.eraseAll l :=
  ext_contains fun k => by
    rw [contains_eraseAll, contains_eraseAll, ← Bool.and_assoc, Bool.and_self]

end OrdSet

namespace ScoreTable

/-- Scores to be stored, one after another. -/
def stored (pairs : List (Bytes × Binary64)) : List (Bytes × Option Binary64) :=
  pairs.map fun pair => (pair.1, some pair.2)

/-- Members to be removed, one after another. -/
def removed (members : List Bytes) : List (Bytes × Option Binary64) :=
  members.map fun m => (m, none)

theorem foldl_insert_eq (z : ScoreTable) (pairs : List (Bytes × Binary64)) :
    pairs.foldl (fun z pair => z.insert pair.1 pair.2) z = z.setAll (stored pairs) := by
  rw [OrdMap.setAll, stored, List.foldl_map]
  rfl

theorem foldl_erase_eq (z : ScoreTable) (members : List Bytes) :
    members.foldl OrdMap.erase z = z.setAll (removed members) := by
  rw [OrdMap.setAll, removed, List.foldl_map]
  rfl

end ScoreTable

/-! ## Deltas that were applied -/

namespace Content

variable {content content' : Content} {delta : Delta}

/-- The append that was taken is the last one of the string. -/
theorem applyAppend_again {s s' : StringValue} {sequence : Int32} {octets : Bytes}
    (h : applyAppend s sequence octets = (.ok (), s')) :
    applyAppend s' sequence octets = (.ok (), s') := by
  have hlast : s'.sequence = sequence := by
    simp only [applyAppend] at h
    split at h
    · cases h
      rfl
    · split at h
      · next hknown =>
        cases h
        exact hknown.symm
      · cases h
  have hnext : sequence ≠ s'.sequence + 1 := by
    rw [hlast, ne_comm, Ne, Int32.add_eq_left]
    decide
  rw [applyAppend, if_neg hnext, if_pos hlast.symm]

/-- **A content that a delta was applied to is what the delta makes of it.** -/
theorem apply_again (h : content.apply delta = (.ok (), content')) :
    content'.apply delta = (.ok (), content') := by
  cases content with
  | set s =>
    cases delta with
    | adds members =>
      cases h
      rw [apply, s.insertAll_again members]
    | rems members =>
      cases h
      rw [apply, s.eraseAll_again members]
    | append | timestamp | zadds => cases h
  | string s =>
    cases delta with
    | append sequence octets =>
      cases happend : applyAppend s sequence octets with
      | mk result s' =>
        rw [apply, happend] at h
        cases h
        rw [apply, applyAppend_again happend]
    | adds | rems | timestamp | zadds => cases h
  | sortedSet z =>
    cases delta with
    | zadds pairs =>
      cases h
      rw [apply, ScoreTable.foldl_insert_eq, ScoreTable.foldl_insert_eq, OrdMap.setAll_again]
    | rems members =>
      cases h
      rw [apply, ScoreTable.foldl_erase_eq, ScoreTable.foldl_erase_eq, OrdMap.setAll_again]
    | adds | append | timestamp => cases h

end Content

namespace Entity

variable {e e' : Entity} {delta : Delta}

theorem apply_again (h : e.apply delta = (.ok (), e')) : e'.apply delta = (.ok (), e') := by
  by_cases htime : delta.kind = .timestamp
  · cases delta <;> cases htime
    cases h
    rfl
  · rw [apply_eq e htime] at h
    obtain ⟨hresult, rfl⟩ := Prod.mk.inj h
    rw [apply_eq _ htime, Content.apply_again (Prod.ext hresult rfl)]

/-- What a delivery leaves, and how it ends, is the same the second time. -/
theorem apply_apply (e : Entity) (delta : Delta) :
    (e.apply delta).2.apply delta = e.apply delta := by
  cases happly : e.apply delta with
  | mk result e' =>
    cases result with
    | ok _ => exact apply_again happly
    | error why =>
      obtain rfl := apply_of_error happly
      exact happly

/-- The same for octets, which may spell no delta at all. -/
theorem applyBytes_applyBytes (e : Entity) (bytes : Bytes) :
    (e.applyBytes bytes).2.applyBytes bytes = e.applyBytes bytes := by
  cases hread : Delta.ofBytes bytes with
  | error fault => simp only [applyBytes, hread]
  | ok delta => rw [applyBytes_eq hread, applyBytes_eq hread, apply_apply]

theorem receiveAll_cons_cons (e : Entity) (delta : Delta) (deltas : List Delta) :
    e.receiveAll (delta :: delta :: deltas) = e.receiveAll (delta :: deltas) := by
  simp only [receiveAll, List.foldl_cons, apply_apply]

/-- Deliveries leave what is left without the ones that are repeated at once. -/
theorem receiveAll_destutter (e : Entity) (deltas : List Delta) :
    e.receiveAll (deltas.destutter (· ≠ ·)) = e.receiveAll deltas := by
  cases deltas with
  | nil => rfl
  | cons delta rest =>
    rw [List.destutter_cons']
    induction rest generalizing e delta with
    | nil => rfl
    | cons next rest ih =>
      by_cases hnext : delta ≠ next
      · rw [List.destutter'_cons_pos rest hnext]
        exact ih (e.apply delta).2 next
      · obtain rfl := not_not.1 hnext
        rw [List.destutter'_cons_neg rest hnext, receiveAll_cons_cons]
        exact ih e delta

/-- **A delta that arrives again at once changes nothing**, and is answered as it was. So it is for
octets, whether they spell a delta or not; and deliveries one after another leave just what is left
without the ones that are repeated at once, however often they are. -/
theorem receive_again (e : Entity) (delta : Delta) :
    (e.apply delta).2.apply delta = e.apply delta
    ∧ (∀ bytes, (e.applyBytes bytes).2.applyBytes bytes = e.applyBytes bytes)
    ∧ ∀ deltas, e.receiveAll (deltas.destutter (· ≠ ·)) = e.receiveAll deltas :=
  ⟨e.apply_apply delta, e.applyBytes_applyBytes, e.receiveAll_destutter⟩

end Entity

end DataGrid
