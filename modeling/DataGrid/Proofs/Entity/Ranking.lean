import DataGrid.Proofs.Entity.Redelivery
import DataGrid.Proofs.Entity.Signs
import DataGrid.Proofs.Number.TotalOrder

/-!
# Ranking — the list by score

The list by score has the members of a sorted set, each of them once and with the bits of its score,
in the order of their ranks: by the total order of scores, and by their octets where the scores are
the same bits (`ScoreTable.Ranks`). That order is strict, so there is only one such list of some
scores, and how a sorted set came to have them does not show in it.

What a sorted set has after calls and deltas is told by the last of them that stored a score of a
member or removed it (`Entity.moveAll_withScores`). So the list by score can be read off what
happened (`ScoreTable.ranked_exact`).
-/

namespace DataGrid

/-! ## Definitions -/

namespace ScoreTable

/-- What can happen to a sorted set: a call on it, or a delta that arrives, whether it suits or
not. -/
inductive Move where
  | call (c : Call)
  | receive (delta : Delta)

/-- The scores that a call stores and the members that it removes, one after another. -/
def Call.edits : Call → List (Bytes × Option Binary64)
  | .add pairs => stored pairs
  | .remove members => removed members

/-- The scores that a delta of scores stores and the members that one of removals removes. Another
delta does neither. -/
def deltaEdits : Delta → List (Bytes × Option Binary64)
  | .zadds pairs => stored pairs
  | .rems members => removed members
  | .adds _ | .append .. | .timestamp _ => []

/-- The scores that are stored and the members that are removed by what happens. -/
def Move.edits : Move → List (Bytes × Option Binary64)
  | .call c => c.edits
  | .receive delta => deltaEdits delta

/-- **Whether a member with its score comes before another one**: its score does, or the scores are
the same bits and its octets do. -/
def Ranks (a b : Bytes × Binary64) : Prop := a.2.Before b.2 ∨ a.2 = b.2 ∧ a.1 < b.1

end ScoreTable

namespace Entity

open ScoreTable (Move)

/-- The entity after what happens. A call is for sorted sets only. -/
def move (e : Entity) : Move → Entity
  | .call c =>
    match e.content with
    | .sortedSet z => e.withScores (z.perform c).1
    | _ => e
  | .receive delta => (e.apply delta).2

/-- The entity after all that happens, one after another. -/
def moveAll (e : Entity) (moves : List Move) : Entity := moves.foldl move e

end Entity

/-! ## What is stored -/

namespace ScoreTable

variable {z : ScoreTable}

theorem storeAll_fst (z : ScoreTable) (pairs : List (Bytes × Binary64)) :
    (storeAll z pairs).1 = z.setAll (stored pairs) := by
  induction pairs generalizing z with
  | nil => rfl
  | cons pair rest ih => exact ih (z.insert pair.1 pair.2)

theorem removePresent_fst (z : ScoreTable) (members : List Bytes) :
    (removePresent z members).1 = z.setAll (removed members) := by
  refine OrdMap.ext_get? fun m => ?_
  rw [← foldl_erase_eq, get?_foldl_erase, get?_removePresent]

theorem perform_fst (z : ScoreTable) (c : Call) : (z.perform c).1 = z.setAll c.edits := by
  cases c with
  | add pairs => exact z.storeAll_fst pairs
  | remove members => exact z.removePresent_fst members

end ScoreTable

namespace Entity

open ScoreTable (Move)

variable {e : Entity} {z : ScoreTable}

/-- One step leaves a sorted set with its scores edited. Only its expiration may change, too. -/
theorem move_withScores (e : Entity) (z : ScoreTable) (move : Move) :
    ∃ e' : Entity, (e.withScores z).move move = e'.withScores (z.setAll move.edits) := by
  cases move with
  | call c =>
    refine ⟨e, ?_⟩
    show e.withScores (z.perform c).1 = e.withScores (z.setAll c.edits)
    rw [ScoreTable.perform_fst]
  | receive delta =>
    cases delta with
    | zadds pairs => exact ⟨e, congrArg e.withScores (ScoreTable.foldl_insert_eq z pairs)⟩
    | rems members => exact ⟨e, congrArg e.withScores (ScoreTable.foldl_erase_eq z members)⟩
    | timestamp time => exact ⟨{ e with expiration := time }, rfl⟩
    | adds | append => exact ⟨e, rfl⟩

/-- **What happens leaves a sorted set with its scores edited**, one after another. -/
theorem moveAll_withScores (e : Entity) (z : ScoreTable) (moves : List Move) :
    ∃ e' : Entity, (e.withScores z).moveAll moves
      = e'.withScores (z.setAll (moves.flatMap Move.edits)) := by
  induction moves generalizing e z with
  | nil => exact ⟨e, rfl⟩
  | cons move rest ih =>
    obtain ⟨e₁, hmove⟩ := e.move_withScores z move
    obtain ⟨e₂, hrest⟩ := ih e₁ (z.setAll move.edits)
    refine ⟨e₂, ?_⟩
    rw [moveAll, List.foldl_cons, hmove, List.flatMap_cons, OrdMap.setAll_append]
    exact hrest

end Entity

/-! ## The list -/

/-- Octets are compared one by one. -/
theorem Bytes.compare_eq_lt_iff (a b : Bytes) : compare a b = .lt ↔ a < b := by
  induction a generalizing b with
  | nil => cases b <;> simp [compare, List.compareLex]
  | cons x a ih =>
    cases b with
    | nil => simp [compare, List.compareLex]
    | cons y b =>
      have hcons : compare (x :: a) (y :: b) = (compare x y).then (compare a b) :=
        List.compareLex_cons_cons
      rw [hcons, Ordering.then_eq_lt, ih, List.cons_lt_cons_iff, Std.compare_eq_lt,
        Std.LawfulEqCmp.compare_eq_iff_eq]

namespace ScoreTable

variable {z z' : ScoreTable} {a b : Bytes × Binary64}

theorem compareRanked_eq_lt_iff : compareRanked a b = .lt ↔ Ranks a b := by
  rw [compareRanked, Ordering.then_eq_lt, Binary64.totalCompare_eq_lt_iff,
    Binary64.totalCompare_eq_eq_iff, Bytes.compare_eq_lt_iff]
  rfl

theorem eq_of_compareRanked (h : compareRanked a b = .eq) : a = b := by
  rw [compareRanked, Ordering.then_eq_eq, Binary64.totalCompare_eq_eq_iff] at h
  exact Prod.ext (Std.LawfulEqCmp.eq_of_compare h.2) h.1

instance : Std.TransCmp compareRanked :=
  inferInstanceAs (Std.TransCmp (compareLex
    (compareOn fun a : Bytes × Binary64 => a.2.totalKey) (compareOn (·.1))))

theorem ranked_perm (z : ScoreTable) : z.ranked.Perm z.entries := List.mergeSort_perm ..

theorem mem_ranked {m : Bytes} {x : Binary64} : (m, x) ∈ z.ranked ↔ z.get? m = some x := by
  rw [z.ranked_perm.mem_iff, OrdMap.get?_eq_some_iff]

/-- Every member is listed once. -/
theorem ranked_nodup (z : ScoreTable) : (z.ranked.map (·.1)).Nodup := by
  rw [(z.ranked_perm.map (·.1)).nodup_iff]
  exact z.keys_nodup

/-- **Every member is listed before the ones behind it.** -/
theorem ranked_pairwise (z : ScoreTable) : z.ranked.Pairwise Ranks := by
  have hsorted : z.ranked.Pairwise fun a b => (compareRanked a b).isLE :=
    List.pairwise_mergeSort (fun a b c => Std.TransCmp.isLE_trans)
      (fun a b => by
        have hswap : compareRanked b a = (compareRanked a b).swap := Std.OrientedCmp.eq_swap
        rw [hswap]
        cases compareRanked a b <;> rfl)
      z.entries
  have hapart : z.ranked.Pairwise (· ≠ ·) := z.ranked_nodup.of_map
  refine (hsorted.and hapart).imp fun {a b} h => ?_
  rw [← compareRanked_eq_lt_iff]
  cases hcompare : compareRanked a b with
  | lt => rfl
  | eq => exact absurd (eq_of_compareRanked hcompare) h.2
  | gt =>
    rw [hcompare] at h
    cases h.1

theorem Ranks.asymm (h : Ranks a b) : ¬Ranks b a := by
  rw [← compareRanked_eq_lt_iff] at h ⊢
  rw [Std.OrientedCmp.gt_of_lt h]
  nofun

/-- **The list by score, whatever happened.** A sorted set remains one, whatever calls are made on it
and whatever deltas arrive. Its list by score has a member with a score just if that was the last
score of the member that was stored, or the one that it had from the start, and the member was not
removed since. Every member is listed once, and before all that it comes before. No other list of
the same members and scores is in that order; so two sorted sets have one list if and only if they
have the same members with the same bits for their scores, whatever happened to them. -/
theorem ranked_exact (e : Entity) (z : ScoreTable) (moves : List Move) :
    ∃ last : ScoreTable, ((e.withScores z).moveAll moves).content = .sortedSet last
      ∧ (∀ m x, (m, x) ∈ last.ranked
        ↔ (OrdMap.lastSet m (moves.flatMap Move.edits)).getD (z.get? m) = some x)
      ∧ (last.ranked.map (·.1)).Nodup
      ∧ last.ranked.Pairwise Ranks
      ∧ (∀ list : List (Bytes × Binary64), list.Perm last.ranked → list.Pairwise Ranks →
        list = last.ranked)
      ∧ ∀ z' : ScoreTable, z'.ranked = last.ranked ↔ ∀ m, z'.get? m = last.get? m := by
  obtain ⟨e', hlast⟩ := e.moveAll_withScores z moves
  refine ⟨_, congrArg Entity.content hlast, fun m x => ?_, ranked_nodup _, ranked_pairwise _,
    fun list hperm hlist => ?_, fun z' => ?_⟩
  · rw [mem_ranked, OrdMap.get?_setAll]
  · exact hperm.eq_of_pairwise (fun a b _ _ hab hba => absurd hba hab.asymm) hlist
      (ranked_pairwise _)
  · rw [ranked_inj]
    exact ⟨fun h m => by rw [h], OrdMap.ext_get?⟩

end ScoreTable

end DataGrid
