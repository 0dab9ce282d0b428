import DataGrid.Proofs.Reply.Tenure
import Mathlib.Data.List.Nodup
import Mathlib.Data.List.Perm.Subperm
import Mathlib.Logic.Function.Iterate

/-!
# Numbers — a free one is found if there is one

A keeper tries its numbers one behind the other, and behind the greatest comes one again
(`Keeper.following`). So as many tries as there are numbers try each of them once. The search makes
one try more than the table has entries, which is enough: numbers tried in vain have an entry each
(`Keeper.searchId_isSome_iff`).
-/

namespace DataGrid

namespace Keeper

/-- The number that is tried behind a number. -/
def following (id : Int32) : Int32 := if id = maxId then 1 else id + 1

variable {k k' : Keeper} {id start : Int32} {fuel : Nat}

theorem candidate_eq (k : Keeper) : k.candidate = (k.next, { k with next := following k.next }) :=
  rfl

/-! ## The order of the numbers -/

theorem toInt_following (h : 0 < id.toInt) : (following id).toInt = id.toInt % 2147483647 + 1 := by
  have hlt := id.toInt_lt
  have hone : (1 : Int32).toInt = 1 := rfl
  unfold following
  split
  · next hmax =>
    rw [hmax]
    rfl
  · next hmax =>
    have hne : id.toInt ≠ 2147483647 := fun heq => hmax (Int32.toInt.inj (by rw [heq]; rfl))
    rw [Int32.toInt_add, hone]
    simp only [Int.bmod]
    omega

/-- The number that is tried after so many others. -/
theorem toInt_iterate_following (h : 0 < start.toInt) (n : Nat) :
    (following^[n] start).toInt = (start.toInt - 1 + n) % 2147483647 + 1 := by
  have hlt := start.toInt_lt
  induction n with
  | zero =>
    rw [Function.iterate_zero_apply]
    omega
  | succ n ih =>
    rw [Function.iterate_succ_apply', toInt_following (by omega), ih]
    omega

/-- Every number is tried, sooner or later. -/
theorem exists_iterate_following (hstart : 0 < start.toInt) (hid : 0 < id.toInt) :
    ∃ n : Nat, n < 2147483647 ∧ following^[n] start = id := by
  have hs := start.toInt_lt
  have hi := id.toInt_lt
  refine ⟨((id.toInt - start.toInt) % 2147483647).toNat, by omega, ?_⟩
  apply Int32.toInt.inj
  rw [toInt_iterate_following hstart]
  omega

/-- No number is tried twice before all of them were tried. -/
theorem iterate_following_inj (hstart : 0 < start.toInt) {a b : Nat} (ha : a < 2147483647)
    (hb : b < 2147483647) (h : following^[a] start = following^[b] start) : a = b := by
  have hint := congrArg Int32.toInt h
  rw [toInt_iterate_following hstart, toInt_iterate_following hstart] at hint
  omega

/-- **Numbers that are tried one behind the other are distinct**, so a list that has them all is at
least as long. -/
theorem le_length_of_tried (hstart : 0 < start.toInt) {m : Nat} (hm : m ≤ 2147483647)
    {l : List Int32} (hl : ∀ n < m, following^[n] start ∈ l) : m ≤ l.length := by
  have hsub : (List.range m).map (following^[·] start) ⊆ l := by
    intro id hid
    obtain ⟨n, hn, rfl⟩ := List.mem_map.1 hid
    exact hl n (List.mem_range.1 hn)
  have hnodup : ((List.range m).map (following^[·] start)).Nodup := by
    refine List.Nodup.map_on (fun a ha b hb hab => ?_) List.nodup_range
    have ha := List.mem_range.1 ha
    have hb := List.mem_range.1 hb
    exact iterate_following_inj hstart (by omega) (by omega) hab
  have hlength := (hnodup.subperm hsub).length_le
  rwa [List.length_map, List.length_range] at hlength

/-! ## The search -/

/-- Only the next number to try is a search's own. -/
theorem isFree_next (k : Keeper) (next id : Int32) : isFree { k with next } id = k.isFree id := rfl

/-- A search that finds a number has found a free one, and moves the next number behind it. -/
theorem searchId_eq_some (h : k.searchId fuel = some (id, k')) (hnext : 0 < k.next.toInt) :
    k.isFree id ∧ 0 < id.toInt ∧ k' = { k with next := following id } := by
  induction fuel generalizing k with
  | zero => cases h
  | succ fuel ih =>
    rw [searchId, candidate_eq] at h
    dsimp only at h
    split at h
    · next hfree =>
      obtain ⟨rfl, rfl⟩ := Prod.mk.inj (Option.some.inj h)
      exact ⟨hfree, hnext, rfl⟩
    · have hrest : 0 < (following k.next).toInt := next_pos hnext
      obtain ⟨hfree, hpos, heq⟩ := ih (k := { k with next := following k.next }) h hrest
      exact ⟨hfree, hpos, heq⟩

/-- A search fails when every number that it tries is taken. -/
theorem searchId_eq_none_iff :
    k.searchId fuel = none ↔ ∀ n < fuel, k.isFree (following^[n] k.next) = false := by
  induction fuel generalizing k with
  | zero => exact ⟨fun _ _ h => absurd h (Nat.not_lt_zero _), fun _ => rfl⟩
  | succ fuel ih =>
    rw [searchId, candidate_eq]
    dsimp only
    constructor
    · intro h n hn
      split at h
      · cases h
      · next hfree =>
        cases n with
        | zero => exact Bool.eq_false_iff.2 hfree
        | succ n => exact ih.1 h n (by omega)
    · intro h
      have hfirst : k.isFree k.next = false := h 0 (Nat.succ_pos fuel)
      rw [isFree_next, hfirst]
      exact ih.2 fun n hn => h (n + 1) (by omega)

/-- A number without an entry is free. -/
theorem get?_table_of_not_isFree (h : k.isFree id = false) : id ∈ k.table.keys := by
  rw [OrdMap.mem_keys, OrdMap.contains_eq]
  unfold isFree at h
  split at h
  · next hentry =>
    rw [hentry]
    rfl
  · cases h

/-- **A free number is found if there is one.** The numbers that are tried in vain are in the
table, so there cannot be more of them than it has entries. -/
theorem searchId_isSome_iff (hnext : 0 < k.next.toInt) :
    (k.searchId (k.table.size + 1)).isSome ↔ ∃ id : Int32, 0 < id.toInt ∧ k.isFree id := by
  constructor
  · intro h
    obtain ⟨⟨id, k'⟩, hfound⟩ := Option.isSome_iff_exists.1 h
    obtain ⟨hfree, hpos, -⟩ := searchId_eq_some hfound hnext
    exact ⟨id, hpos, hfree⟩
  · rintro ⟨id, hpos, hfree⟩
    by_contra hnone
    have hvain := searchId_eq_none_iff.1 (Option.not_isSome_iff_eq_none.1 hnone)
    obtain ⟨n, hn, rfl⟩ := exists_iterate_following hnext hpos
    have hlate : k.table.size + 1 ≤ n := by
      by_contra hearly
      have htaken := hvain n (by omega)
      rw [hfree] at htaken
      cases htaken
    -- The numbers before the free one are all in the table.
    have hlength := le_length_of_tried hnext (by omega) fun n hn =>
      get?_table_of_not_isFree (hvain n hn)
    have hkeys : k.table.keys.length = k.table.size := List.length_map _
    omega

end Keeper

end DataGrid
