import DataGrid.Proofs.Region.Mending

/-!
# History — all that one copy can meet

A copy meets the commands of its own member and the updates of others. Updates are not to be
trusted: their events, keys and payloads are arbitrary, and so is their order. Whatever a copy has
met since it was empty, it holds no empty entity and nothing is staged in it
(`RegionState.tidy_history`). So an empty set is never taken for a key that is there, and no delta
is left over that the next commit could ship.
-/

namespace DataGrid

/-- What one copy of a region meets. -/
inductive Encounter where
  /-- A command of the copy's own member. It may be refused. -/
  | command (key : Bytes) (c : Command)
  /-- An update that claims to come from another member. -/
  | update (u : Update)

namespace RegionState

/-- The copy after one encounter. -/
def meet (s : RegionState) : Encounter → RegionState
  | .command key c => { s with entries := (s.entries.run key c).2 }
  | .update u => (s.applyUpdate u).2

/-- The copy after encounters, one after another. -/
def history (s : RegionState) (encounters : List Encounter) : RegionState := encounters.foldl meet s

/-- A copy that a command is refused at stays as it is. -/
theorem meet_refused {s : RegionState} (h : s.entries.Tidy) {key : Bytes} {c : Command}
    {why : CommandError} (hrefused : (s.entries.run key c).1 = .error why) :
    s.meet (.command key c) = s := by
  obtain ⟨entries', hrun, -, -, hresult⟩ := Entries.run_replicates h key c
  rw [hrefused] at hresult
  rw [meet, hrun, hresult]

/-- An encounter leaves a copy tidy. -/
theorem tidy_meet {s : RegionState} (h : s.entries.Tidy) (encounter : Encounter) :
    (s.meet encounter).entries.Tidy := by
  cases encounter with
  | command key c =>
    obtain ⟨entries', hrun, htidy, -⟩ := Entries.run_replicates h key c
    rw [meet, hrun]
    exact htidy
  | update u => exact tidy_applyUpdate h u

theorem tidy_foldl_meet {s : RegionState} (h : s.entries.Tidy) (encounters : List Encounter) :
    (s.history encounters).entries.Tidy := by
  induction encounters generalizing s with
  | nil => exact h
  | cons encounter rest ih => exact ih (tidy_meet h encounter)

/-- **Whatever a copy has met, it is tidy**: no entity in it is empty, and nothing is staged. -/
theorem tidy_history (encounters : List Encounter) :
    (history {} encounters).entries.Tidy :=
  tidy_foldl_meet Entries.tidy_empty encounters

end RegionState

end DataGrid
