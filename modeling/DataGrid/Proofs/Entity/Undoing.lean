import DataGrid.Proofs.Entity.Effects

/-!
# Undoing — the deltas of sets, there and back

An operation on a set reports the members that it added or that it removed: each once, in the order
in which the call names them for the first time, however often it does, and none that were there
already or were not there (`SetValue.addNew_snd`, `SetValue.removePresent_snd`). The sets before and
after differ in just these members. So the delta leads from the one to the other, and the same
members the other way around lead back (`SetValue.Joins`).
-/

namespace DataGrid

/-! ## Definitions -/

/-- Adding what was removed, or removing what was added. -/
def Delta.undo : Delta → Delta
  | .adds members => .rems members
  | .rems members => .adds members
  | delta => delta

namespace SetValue

/-- **Whether a delta leads from a set to another one, and undoing it leads back**, whatever else
there is to the entity. Without a delta the sets are the same. -/
def Joins (s s' : SetValue) : Option Delta → Prop
  | none => s' = s
  | some delta => ∀ e : Entity,
    { e with content := .set s }.apply delta = (.ok (), { e with content := .set s' })
      ∧ { e with content := .set s' }.apply delta.undo = (.ok (), { e with content := .set s })

/-- Whether members can be the ones chosen at random when so many of a set are to go. -/
structure Offers (s : SetValue) (count : Nat) (chosen : List Bytes) : Prop where
  distinct : chosen.Nodup
  length_eq : chosen.length = count
  present : ∀ m ∈ chosen, s.contains m

end SetValue

/-! ## There and back -/

namespace OrdSet

variable {κ : Type} [Ord κ] [Std.TransOrd κ] [Std.LawfulEqOrd κ] [DecidableEq κ]
variable {s : OrdSet κ} {l : List κ}

/-- New members that are removed again. -/
theorem eraseAll_insertAll (h : ∀ k ∈ l, s.contains k = false) :
    (s.insertAll l).eraseAll l = s :=
  ext_contains fun k => by
    rw [contains_eraseAll, contains_insertAll]
    by_cases hk : k ∈ l
    · simp [hk, h k hk]
    · simp [hk]

/-- Members that are removed and come back. -/
theorem insertAll_eraseAll (h : ∀ k ∈ l, s.contains k) : (s.eraseAll l).insertAll l = s :=
  ext_contains fun k => by
    rw [contains_insertAll, contains_eraseAll]
    by_cases hk : k ∈ l
    · simp [hk, h k hk]
    · simp [hk]

end OrdSet

namespace SetValue

variable {s : SetValue} {members chosen : List Bytes} {count : Nat}

theorem joins_adds (h : ∀ m ∈ members, s.contains m = false) :
    s.Joins (s.insertAll members) (some (.adds members)) := by
  refine fun e => ⟨rfl, ?_⟩
  show ((.ok (), { e with content := .set ((s.insertAll members).eraseAll members) }) :
    Except Refusal Unit × Entity) = _
  rw [OrdSet.eraseAll_insertAll h]

theorem joins_rems (h : ∀ m ∈ members, s.contains m) :
    s.Joins (s.eraseAll members) (some (.rems members)) := by
  refine fun e => ⟨rfl, ?_⟩
  show ((.ok (), { e with content := .set ((s.eraseAll members).insertAll members) }) :
    Except Refusal Unit × Entity) = _
  rw [OrdSet.insertAll_eraseAll h]

/-! ## What is reported -/

/-- **The members reported as new**: those that the set did not have, in the order of their first
mention. -/
theorem addNew_snd (s : SetValue) (members : List Bytes) :
    (addNew s members).2 = (members.filter fun m => !s.contains m).eraseDups := by
  induction members generalizing s with
  | nil => rfl
  | cons n rest ih =>
    rw [addNew]
    split
    · next hn => rw [ih, List.filter_cons_of_neg (by simp [hn])]
    · next hn =>
      -- Once it is added, what is left of the call does not report it again.
      have hrest : (rest.filter fun m => !(s.insert n).contains m)
          = (rest.filter fun m => !s.contains m).filter fun m => !m == n := by
        rw [List.filter_filter]
        refine List.filter_congr fun m _ => ?_
        by_cases hm : m = n <;> simp [hm]
      rw [List.filter_cons_of_pos (by simp [hn]), List.eraseDups_cons, ← hrest, ← ih]

/-- **The members reported as removed**: those that the set had, in the order of their first
mention. -/
theorem removePresent_snd (s : SetValue) (members : List Bytes) :
    (removePresent s members).2 = (members.filter s.contains).eraseDups := by
  induction members generalizing s with
  | nil => rfl
  | cons n rest ih =>
    rw [removePresent]
    split
    · next hn =>
      have hrest : (rest.filter (s.erase n).contains)
          = (rest.filter s.contains).filter fun m => !m == n := by
        rw [List.filter_filter]
        refine List.filter_congr fun m _ => ?_
        by_cases hm : m = n <;> simp [hm]
      rw [List.filter_cons_of_pos hn, List.eraseDups_cons, ← hrest, ← ih]
    · next hn => rw [ih, List.filter_cons_of_neg hn]

/-- Nothing is reported just if the call names nothing new. -/
theorem add_snd (s : SetValue) (members : List Bytes) :
    (s.add members).2 = if members.all s.contains then none
      else some (.adds (members.filter fun m => !s.contains m).eraseDups) := by
  have hnone : (addNew s members).2.isEmpty ↔ members.all s.contains := by
    rw [List.isEmpty_iff, List.eq_nil_iff_forall_not_mem, List.all_eq_true]
    simp [mem_addNew]
  rw [add, ← addNew_snd]
  simp only [hnone]

/-- Nothing is reported just if the call names nothing that is there. -/
theorem remove_snd (s : SetValue) (members : List Bytes) :
    (s.remove members).2 = if members.any s.contains then
      some (.rems (members.filter s.contains).eraseDups) else none := by
  have hnone : (removePresent s members).2.isEmpty ↔ ¬members.any s.contains := by
    rw [List.isEmpty_iff, List.eq_nil_iff_forall_not_mem, List.any_eq_true]
    simp [mem_removePresent]
  rw [remove, ← removePresent_snd]
  simp only [hnone, ite_not]

theorem add_joins (s : SetValue) (members : List Bytes) :
    s.Joins (s.add members).1 (s.add members).2 := by
  have heq := s.addNew_eq members
  simp only [add]
  split
  · next hempty =>
    rw [List.isEmpty_iff.1 hempty] at heq
    exact heq
  · rw [heq]
    exact joins_adds fun m hm => (mem_addNew.1 hm).2

theorem remove_joins (s : SetValue) (members : List Bytes) :
    s.Joins (s.remove members).1 (s.remove members).2 := by
  have heq := s.removePresent_eq members
  simp only [remove]
  split
  · next hempty =>
    rw [List.isEmpty_iff.1 hempty] at heq
    exact heq
  · rw [heq]
    exact joins_rems fun m hm => (mem_removePresent.1 hm).2

/-! ## Members that go at random -/

theorem length_toList (s : SetValue) : s.toList.length = s.size := List.length_map ..

theorem offers_nil (s : SetValue) : s.Offers 0 [] := ⟨.nil, rfl, nofun⟩

/-- **What is popped**: so many members as asked for, or all if there are no more. -/
theorem pop_offers (h : count < s.size → s.Offers count chosen) :
    s.Offers (min count s.size) (s.pop count chosen).2.1 := by
  unfold pop
  split
  · next hnone =>
    have hzero : min count s.size = 0 := by
      rcases Bool.or_eq_true_iff.1 hnone with hempty | hcount
      · have hsize : s.size = 0 := List.length_eq_zero_iff.2 (List.isEmpty_iff.1 hempty)
        omega
      · have hcount := beq_iff_eq.1 hcount
        omega
    rw [hzero]
    exact s.offers_nil
  split
  · next hall =>
    rw [Nat.min_eq_right hall]
    exact ⟨s.toList_nodup, s.length_toList, fun m hm => OrdSet.mem_toList.1 hm⟩
  · next hsome =>
    have hlt : count < s.size := Nat.not_le.1 hsome
    rw [Nat.min_eq_left (Nat.le_of_lt hlt)]
    exact h hlt

/-- Popping removes what is popped, and reports it unless it is nothing. -/
theorem pop_eq (h : count < s.size → s.Offers count chosen) :
    s.pop count chosen = (s.eraseAll (s.pop count chosen).2.1, (s.pop count chosen).2.1,
      if (s.pop count chosen).2.1 = [] then none else some (.rems (s.pop count chosen).2.1)) := by
  unfold pop
  split
  · rfl
  next hsome =>
  rw [Bool.or_eq_true_iff, not_or, beq_iff_eq] at hsome
  obtain ⟨hnonempty, hcount⟩ := hsome
  split
  · have hne : s.toList ≠ [] := fun hnil => hnonempty (by
      rw [OrdSet.isEmpty, OrdMap.isEmpty, List.isEmpty_iff]
      exact List.map_eq_nil_iff.1 hnil)
    rw [if_neg hne, eraseAll_toList]
  · next hlt =>
    have hne : chosen ≠ [] := fun hnil => hcount (by
      rw [← (h (Nat.not_le.1 hlt)).length_eq, hnil, List.length_nil])
    rw [if_neg hne]

theorem pop_joins (h : count < s.size → s.Offers count chosen) :
    s.Joins (s.pop count chosen).1 (s.pop count chosen).2.2 := by
  have hpresent := (pop_offers h).present
  rw [pop_eq h]
  dsimp only
  split
  · next hnil => rw [hnil]; rfl
  · exact joins_rems hpresent

/-! ## Sets and their deltas -/

/-- **What the operations on a set leave and report, and that it can be undone.** Adding leaves the
union, and removing leaves the difference. The delta lists the members that make the change, in the
order of their first mention, and there is none if nothing changes. Popping removes what it answers,
which is so many different members as asked for, or all if there are no more, whichever are chosen.
The delta of each leads from the set before to the set after, and undoing it leads back. -/
theorem reports_exact (s : SetValue) :
    (∀ members,
      (∀ m, (s.add members).1.contains m ↔ m ∈ members ∨ s.contains m)
      ∧ ((s.add members).2 = if members.all s.contains then none
          else some (.adds (members.filter fun m => !s.contains m).eraseDups))
      ∧ s.Joins (s.add members).1 (s.add members).2)
    ∧ (∀ members,
      (∀ m, (s.remove members).1.contains m ↔ s.contains m ∧ m ∉ members)
      ∧ ((s.remove members).2 = if members.any s.contains then
          some (.rems (members.filter s.contains).eraseDups) else none)
      ∧ s.Joins (s.remove members).1 (s.remove members).2)
    ∧ ∀ count chosen, (count < s.size → s.Offers count chosen) →
      let popped := (s.pop count chosen).2.1
      s.Offers (min count s.size) popped
      ∧ (∀ m, (s.pop count chosen).1.contains m ↔ s.contains m ∧ m ∉ popped)
      ∧ ((s.pop count chosen).2.2 = if popped = [] then none else some (.rems popped))
      ∧ s.Joins (s.pop count chosen).1 (s.pop count chosen).2.2 := by
  refine ⟨fun members => ⟨fun m => ?_, s.add_snd members, s.add_joins members⟩,
    fun members => ⟨fun m => ?_, s.remove_snd members, s.remove_joins members⟩,
    fun count chosen h => ⟨pop_offers h, fun m => ?_, congrArg (·.2.2) (pop_eq h), pop_joins h⟩⟩
  · simp [add, contains_addNew]
  · simp [remove, contains_removePresent, and_comm]
  · have hleft := congrArg Prod.fst (pop_eq h)
    rw [hleft]
    simp [and_comm]

/-- Calls that name members twice, members that are there and members that are not, and two of three
members popped. -/
theorem reports_exact_repeats :
    let s : SetValue := .ofList [[97], [98], [99]]
    let chosen : List Bytes := [[99], [97]]
    (s.add [[100], [97], [101], [100]]).2 = some (.adds [[100], [101]])
      ∧ (s.remove [[99], [100], [97], [99]]).2 = some (.rems [[99], [97]])
      ∧ 2 < s.size ∧ s.Offers 2 chosen
      ∧ (s.pop 2 chosen).2.2 = some (.rems chosen) ∧ (s.pop 2 chosen).1.contains [98]
      ∧ s.Joins (s.pop 2 chosen).1 (some (.rems chosen)) := by
  intro s chosen
  obtain ⟨hadd, hremove, hpop⟩ := reports_exact s
  have hoffers : s.Offers 2 chosen := ⟨by decide, rfl, by decide⟩
  obtain ⟨-, hleft, hdelta, hjoins⟩ := hpop 2 chosen fun _ => hoffers
  rw [hdelta] at hjoins
  exact ⟨(hadd _).2.1, (hremove _).2.1, by decide, hoffers, hdelta,
    (hleft [98]).2 ⟨by decide, by decide⟩, hjoins⟩

end SetValue

end DataGrid
