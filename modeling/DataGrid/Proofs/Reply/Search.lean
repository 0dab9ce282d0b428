import DataGrid.Proofs.Reply.Holding

/-!
# Search — looking for a number comes to an end

A keeper that looks for a number tries one after the other until one is free, however many that
takes (`Keeper.Searches`). A number is passed over only if it names a processor that has an owner,
and none is tried twice before all of them were tried. So a keeper with fewer such entries than
there are numbers makes at most one try more than it has of them, through the greatest number and
on from one (`Keeper.searches_ends`). Entries whose processor is gone do not count: their numbers
are given out again.
-/

namespace DataGrid

namespace Keeper

/-- The entries whose processor has an owner. -/
def liveEntries (k : Keeper) : OrdMap Int32 Nat :=
  k.table.filter fun _ ticket => k.live.contains ticket

/-- **The search for a number, with the tries that it takes.** Nothing bounds them: the search goes
on as long as the number that it tries is taken. -/
inductive Searches : Keeper → (tries : Nat) → Int32 → Keeper → Prop where
  | found {k : Keeper} (h : k.isFree k.candidate.1) : Searches k 1 k.candidate.1 k.candidate.2
  | passed {k k' : Keeper} {tries : Nat} {id : Int32} (h : k.isFree k.candidate.1 = false)
      (rest : Searches k.candidate.2 tries id k') : Searches k (tries + 1) id k'

variable {k k' : Keeper} {id : Int32} {tries fuel : Nat}

/-! ## Entries that count -/

theorem liveEntries_size_le (k : Keeper) : k.liveEntries.size ≤ k.table.size :=
  List.length_filter_le _ _

theorem mem_liveEntries : id ∈ k.liveEntries.keys
    ↔ ∃ ticket, k.table.get? id = some ticket ∧ k.live.contains ticket := by
  rw [OrdMap.mem_keys, OrdMap.contains_eq, liveEntries, OrdMap.get?_filter,
    Option.isSome_iff_exists]
  exact exists_congr fun ticket => Option.filter_eq_some_iff

/-- A number is free if it is vacant or its processor is gone. -/
theorem isFree_iff : k.isFree id
    ↔ k.table.get? id = none ∨ ∃ ticket, k.table.get? id = some ticket
      ∧ k.live.contains ticket = false := by
  unfold isFree
  cases k.table.get? id <;> simp

theorem isFree_eq_false_iff : k.isFree id = false ↔ id ∈ k.liveEntries.keys := by
  rw [mem_liveEntries]
  unfold isFree
  cases k.table.get? id <;> simp

/-- Of one number more than there are entries that count, one is free. -/
theorem exists_isFree (hnext : 0 < k.next.toInt) (hlive : k.liveEntries.size < 2147483647) :
    ∃ n ≤ k.liveEntries.size, k.isFree (following^[n] k.next) := by
  by_contra hnone
  have htaken : ∀ n < k.liveEntries.size + 1, following^[n] k.next ∈ k.liveEntries.keys := by
    intro n hn
    rw [← isFree_eq_false_iff, ← Bool.not_eq_true]
    exact fun hfree => hnone ⟨n, Nat.le_of_lt_succ hn, hfree⟩
  have hlength := le_length_of_tried hnext (by omega) htaken
  have hkeys : k.liveEntries.keys.length = k.liveEntries.size := List.length_map _
  omega

/-! ## The search and its bound -/

/-- The search ends with the first free number. -/
theorem searches_of_isFree {n : Nat} (h : k.isFree (following^[n] k.next)) :
    ∃ m ≤ n, k.Searches (m + 1) (following^[m] k.next)
      { k with next := following (following^[m] k.next) } := by
  induction n generalizing k with
  | zero => exact ⟨0, Nat.le_refl 0, .found h⟩
  | succ n ih =>
    by_cases hfirst : k.isFree k.next
    · exact ⟨0, Nat.zero_le _, .found hfirst⟩
    · obtain ⟨m, hm, hrest⟩ := ih (k := k.candidate.2) h
      exact ⟨m + 1, Nat.succ_le_succ hm, .passed (Bool.eq_false_iff.2 hfirst) hrest⟩

/-- A search with a bound that lets it end finds what the search finds. -/
theorem Searches.searchId_eq (h : k.Searches tries id k') (hfuel : tries ≤ fuel) :
    k.searchId fuel = some (id, k') := by
  induction h generalizing fuel with
  | @found k hfree =>
    obtain ⟨fuel, rfl⟩ : ∃ n, fuel = n + 1 := ⟨fuel - 1, by omega⟩
    exact if_pos hfree
  | @passed k k' tries id htaken rest ih =>
    obtain ⟨fuel, rfl⟩ : ∃ n, fuel = n + 1 := ⟨fuel - 1, by omega⟩
    have htaken' : ¬k.candidate.2.isFree k.candidate.1 = true := by
      rw [candidate_eq, isFree_next]
      exact Bool.eq_false_iff.1 htaken
    exact (if_neg htaken').trans (ih (Nat.le_of_succ_le_succ hfuel))

theorem Searches.freshId_eq (h : k.Searches tries id k') (htries : tries ≤ k.table.size + 1) :
    k.freshId = (id, k') := by
  rw [freshId, h.searchId_eq htries, Option.getD_some]

/-- A registration moves the number to try first as its search does. -/
theorem next_register (k : Keeper) (p : Processor) : (k.register p).2.next = k.freshId.2.next := by
  unfold register
  dsimp only
  split
  · rw [next_unregister]
  · rfl

/-- **Looking for a number comes to an end.** A keeper whose next number is positive and of whose
entries fewer than all numbers name a processor with an owner finds a number after at most one try
more than it has such entries. The number is positive, and is vacant or was that of a processor
that is gone. The next number to try is the one that follows, one behind the greatest, and so is
positive again. A registration gives the number to its processor. -/
theorem searches_ends (hnext : 1 ≤ k.next.toInt) (hlive : k.liveEntries.size < 2147483647) :
    ∃ tries id, k.Searches tries id { k with next := following id }
      ∧ tries ≤ k.liveEntries.size + 1
      ∧ (k.table.get? id = none
        ∨ ∃ ticket, k.table.get? id = some ticket ∧ k.live.contains ticket = false)
      ∧ (1 ≤ id.toInt ∧ id.toInt ≤ 2147483647)
      ∧ (1 ≤ (following id).toInt ∧ (following id).toInt ≤ 2147483647)
      ∧ k.freshId = (id, { k with next := following id })
      ∧ ∀ p, (k.register p).2.get? (k.register p).1 = some { id, processor := p }
        ∧ (k.register p).2.next = following id := by
  obtain ⟨n, hn, hfree⟩ := exists_isFree hnext hlive
  obtain ⟨m, hm, hsearch⟩ := searches_of_isFree hfree
  have htries : m + 1 ≤ k.table.size + 1 := by
    have hsize := k.liveEntries_size_le
    omega
  have hfound := hsearch.searchId_eq htries
  obtain ⟨hfree, hpos, -⟩ := searchId_eq_some hfound hnext
  have hfresh := hsearch.freshId_eq htries
  have hfollowing := toInt_following hpos
  have hlt := (following^[m] k.next).toInt_lt
  refine ⟨m + 1, following^[m] k.next, hsearch, by omega, isFree_iff.1 hfree, by omega, by omega,
    hfresh, fun p => ⟨?_, ?_⟩⟩
  · rw [get?_register, hfresh]
  · rw [next_register, hfresh]

/-- The greatest number and the two behind it are taken, and the one after them was that of a
processor that is gone. The search makes one try more than there are entries that count. -/
theorem searches_ends_past_greatest :
    let r : Registration := { id := 1, processor := .await [] fun _ => true }
    let k : Keeper := { next := maxId, table := .ofList [(maxId, 0), (1, 1), (2, 2), (3, 3)]
                        live := .ofList [(0, r), (1, r), (2, r)], tickets := 4 }
    1 ≤ k.next.toInt ∧ k.liveEntries.size = 3 ∧ k.Searches 4 3 { k with next := 4 }
      ∧ k.table.contains 3 ∧ ∃ tries id, k.Searches tries id { k with next := following id }
        ∧ tries ≤ k.liveEntries.size + 1 ∧ k.freshId = (id, { k with next := following id }) := by
  intro r k
  have hnext : 1 ≤ k.next.toInt := by decide
  have hsize : k.liveEntries.size = 3 := by decide
  obtain ⟨tries, id, hsearch, htries, -, -, -, hfresh, -⟩ :=
    searches_ends hnext (by rw [hsize]; decide)
  refine ⟨hnext, hsize, ?_, by decide, tries, id, hsearch, htries, hfresh⟩
  exact .passed (by decide) (.passed (by decide) (.passed (by decide) (.found (by decide))))

end Keeper

end DataGrid
