import DataGrid.Proofs.Ordered.Lookup

/-!
# Setting — keys that are set in turn

When keys of a map are set and removed one after another, the last time counts for each of them
(`OrdMap.get?_setAll`). So to do it all again changes nothing (`OrdMap.setAll_again`).
-/

namespace DataGrid

namespace OrdMap

variable {κ ν : Type} [DecidableEq κ]

/-- What a key was last set to, or that it was last removed, if it was set or removed at all. -/
def lastSet (k : κ) (edits : List (κ × Option ν)) : Option (Option ν) :=
  ((edits.filter (·.1 = k)).map (·.2)).getLast?

theorem lastSet_cons (k : κ) (edit : κ × Option ν) (rest : List (κ × Option ν)) :
    lastSet k (edit :: rest) = (lastSet k rest).or (if edit.1 = k then some edit.2 else none) := by
  by_cases hk : edit.1 = k
  · rw [lastSet, List.filter_cons_of_pos (by simpa using hk), List.map_cons, List.getLast?_cons,
      if_pos hk, lastSet]
    cases ((rest.filter (·.1 = k)).map (·.2)).getLast? <;> rfl
  · rw [lastSet, List.filter_cons_of_neg (by simpa using hk), if_neg hk, Option.or_none, lastSet]

variable [Ord κ] [Std.TransOrd κ]

/-- The map with keys set, or removed, in turn. -/
def setAll (m : OrdMap κ ν) (edits : List (κ × Option ν)) : OrdMap κ ν :=
  edits.foldl (fun m edit => m.set edit.1 edit.2) m

omit [DecidableEq κ] in
theorem setAll_append (m : OrdMap κ ν) (edits edits' : List (κ × Option ν)) :
    m.setAll (edits ++ edits') = (m.setAll edits).setAll edits' :=
  List.foldl_append

variable [Std.LawfulEqOrd κ]

/-- **The last time that a key is set or removed counts.** -/
theorem get?_setAll (m : OrdMap κ ν) (edits : List (κ × Option ν)) (k : κ) :
    (m.setAll edits).get? k = (lastSet k edits).getD (m.get? k) := by
  induction edits generalizing m with
  | nil => rfl
  | cons edit rest ih =>
    have hstep : m.setAll (edit :: rest) = (m.set edit.1 edit.2).setAll rest := rfl
    rw [hstep, ih, get?_set, lastSet_cons]
    cases lastSet k rest with
    | some value => rfl
    | none =>
      by_cases hk : edit.1 = k
      · simp [hk]
      · simp [hk, Ne.symm hk]

/-- Doing it all again changes nothing. -/
theorem setAll_again (m : OrdMap κ ν) (edits : List (κ × Option ν)) :
    (m.setAll edits).setAll edits = m.setAll edits := by
  refine ext_get? fun k => ?_
  rw [get?_setAll, get?_setAll]
  cases lastSet k edits <;> rfl

end OrdMap

end DataGrid
