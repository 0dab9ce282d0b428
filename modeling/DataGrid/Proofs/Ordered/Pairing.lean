import DataGrid.Proofs.Ordered.Lookup
import Mathlib.Data.List.Forall2

/-!
# Pairing — two maps entry by entry

The entries of a map stand in the order of their keys, so two maps have the same keys, with related
values, just if their entries are related in pairs (`OrdMap.forall₂_entries_iff`).
-/

namespace DataGrid

namespace OrdMap

variable {κ ν : Type} [Ord κ] {R : ν → ν → Prop}

theorem rel_lookup {l l' : List (κ × ν)}
    (h : List.Forall₂ (fun p q => p.1 = q.1 ∧ R p.2 q.2) l l') (k : κ) :
    Option.Rel R (lookup k l) (lookup k l') := by
  induction h with
  | nil => exact .none
  | cons hpq _ ih =>
    obtain ⟨hkey, hvalue⟩ := hpq
    unfold lookup
    rw [hkey]
    split
    · exact .none
    · exact .some hvalue
    · exact ih

variable [Std.TransOrd κ] [Std.LawfulEqOrd κ] {a b : OrdMap κ ν}

theorem keys_eq_of_rel (h : ∀ k, Option.Rel R (a.get? k) (b.get? k)) : a.keys = b.keys := by
  have hkeys : ∀ m : OrdMap κ ν, (m.mapValues fun _ => ()).keys = m.keys := fun m => by
    simp only [keys, mapValues, List.map_map]
    rfl
  rw [← hkeys a, ← hkeys b]
  refine congrArg keys (ext_get? fun k => ?_)
  have hk := h k
  rw [get?_mapValues, get?_mapValues]
  generalize a.get? k = x at hk ⊢
  generalize b.get? k = y at hk ⊢
  cases hk <;> rfl

/-- What is true of all entries is true of all look-ups. -/
theorem forall_entries_iff {P : κ → ν → Prop} :
    (∀ p ∈ a.entries, P p.1 p.2) ↔ ∀ k, ∀ v ∈ a.get? k, P k v := by
  constructor
  · intro h k v hv
    exact h (k, v) (get?_eq_some_iff.1 hv)
  · intro h p hp
    exact h p.1 p.2 (get?_eq_some_iff.2 hp)

/-- **Maps are related entry by entry just if their look-ups are.** -/
theorem forall₂_entries_iff :
    List.Forall₂ (fun p q => p.1 = q.1 ∧ R p.2 q.2) a.entries b.entries
      ↔ ∀ k, Option.Rel R (a.get? k) (b.get? k) := by
  refine ⟨fun h => rel_lookup h, fun h => ?_⟩
  have hkeys := keys_eq_of_rel h
  have hlength : a.entries.length = b.entries.length := by
    simpa only [keys, List.length_map] using congrArg List.length hkeys
  refine List.forall₂_iff_get.2 ⟨hlength, fun i ha hb => ?_⟩
  have hkey : (a.entries.get ⟨i, ha⟩).1 = (b.entries.get ⟨i, hb⟩).1 := by
    have hi : a.keys[i]? = b.keys[i]? := by rw [hkeys]
    simpa [keys, List.getElem?_eq_getElem ha, List.getElem?_eq_getElem hb] using hi
  refine ⟨hkey, ?_⟩
  have hrel := h (a.entries.get ⟨i, ha⟩).1
  rw [get?_eq_some_iff.2 (List.get_mem a.entries ⟨i, ha⟩), hkey,
    get?_eq_some_iff.2 (List.get_mem b.entries ⟨i, hb⟩)] at hrel
  cases hrel with
  | some hvalue => exact hvalue

end OrdMap

end DataGrid
