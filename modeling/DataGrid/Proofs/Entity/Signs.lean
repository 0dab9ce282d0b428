import DataGrid.Proofs.Entity.Effects

/-!
# Signs — which zeros a copy has the other way round

A score is stored whatever it is, but a delta lists it only if it is another number than the one
before. A zero over the other zero is the only store of new bits that is not listed: the table then
has one zero and the copies the other one. The next such store turns the zero back, a score that is
listed puts it right, and a member that goes takes it along. So the members that a copy has the
other way round are known from the calls (`ScoreTable.turnedBy`), and everything else of a copy is
right, bit for bit. A copy lists its members in the order of the table just if there are none
(`ScoreTable.copies_right_iff`), and there never are any if all zeros have one sign.
-/

namespace DataGrid

/-! ## Zeros -/

namespace Binary64

variable {x y : Binary64}

theorem negate_negate (x : Binary64) : x.negate.negate = x := by
  simp only [negate, UInt64.xor_assoc, UInt64.xor_self, UInt64.xor_zero]

/-- There are two zeros. -/
theorem magnitude_eq_zero_iff : x.magnitude = 0 ↔ x = zero ∨ x = zero.negate := by
  constructor
  · intro h
    have hlt := x.bits.toNat_lt
    have hbits : x.bits.toNat = 0 ∨ x.bits.toNat = signWeight := by
      simp only [magnitude, signWeight] at h ⊢
      omega
    refine hbits.imp (fun hzero => ?_) (fun hsign => ?_)
    · exact congrArg mk (UInt64.toNat_inj.1 hzero)
    · exact congrArg mk (UInt64.toNat_inj.1 hsign)
  · rintro (rfl | rfl) <;> decide

theorem eq_or_eq_negate (hx : x.magnitude = 0) (hy : y.magnitude = 0) : x = y ∨ x = y.negate := by
  rcases magnitude_eq_zero_iff.1 hx with rfl | rfl <;>
    rcases magnitude_eq_zero_iff.1 hy with rfl | rfl <;> decide

theorem magnitude_negate (h : x.magnitude = 0) : x.negate.magnitude = 0 := by
  rcases magnitude_eq_zero_iff.1 h with rfl | rfl <;> decide

theorem negate_ne (h : x.magnitude = 0) : x.negate ≠ x := by
  rcases magnitude_eq_zero_iff.1 h with rfl | rfl <;> decide

end Binary64

/-! ## Definitions -/

namespace Entity

/-- The entity with a table for its content. -/
def withScores (e : Entity) (z : ScoreTable) : Entity := { e with content := .sortedSet z }

/-- Applies deltas one after another, up to one that does not suit. -/
def applyAll (e : Entity) : List Delta → Except Refusal Unit × Entity
  | [] => (.ok (), e)
  | delta :: rest =>
    match e.apply delta with
    | (.ok (), e) => e.applyAll rest
    | (.error why, e) => (.error why, e)

/-- Deltas that are applied leave the entity to those behind them. -/
theorem applyAll_append {e e' : Entity} {front : List Delta} (h : e.applyAll front = (.ok (), e'))
    (rest : List Delta) : e.applyAll (front ++ rest) = e'.applyAll rest := by
  induction front generalizing e with
  | nil =>
    cases h
    rfl
  | cons delta front ih =>
    rw [applyAll] at h
    rw [List.cons_append, applyAll]
    split at h
    · exact ih h
    · cases h

end Entity

namespace ScoreTable

/-- A call on a sorted set. -/
inductive Call where
  | add (pairs : List (Bytes × Binary64))
  | remove (members : List Bytes)

/-- The scores that a call stores. -/
def Call.scores : Call → List Binary64
  | .add pairs => pairs.map (·.2)
  | .remove _ => []

/-- The scores of a table. -/
def scores (z : ScoreTable) : List Binary64 := z.entries.map (·.2)

/-- What a call leaves, and the delta that it emits. -/
def perform (z : ScoreTable) : Call → ScoreTable × Option Delta
  | .add pairs => z.add pairs
  | .remove members => z.remove members

/-- What calls leave one after another, and the deltas that they emit. -/
def performAll (z : ScoreTable) : List Call → ScoreTable × List Delta
  | [] => (z, [])
  | call :: rest =>
    let (z, delta) := z.perform call
    let (z, deltas) := performAll z rest
    (z, delta.toList ++ deltas)

/-- Whether a zero is stored over the other zero. -/
def turnsZero (previous : Option Binary64) (score : Binary64) : Bool :=
  score.magnitude == 0 && previous == some score.negate

/-- The members that copies have the other way round after one more store. -/
def turn (z : ScoreTable) (turned : OrdSet Bytes) (m : Bytes) (score : Binary64) : OrdSet Bytes :=
  if turnsZero (z.get? m) score then
    if turned.contains m then turned.erase m else turned.insert m
  else if isChange (z.get? m) score then turned.erase m
  else turned

/-- The members that copies have the other way round after more stores. -/
def turnAll (z : ScoreTable) (turned : OrdSet Bytes) : List (Bytes × Binary64) → OrdSet Bytes
  | [] => turned
  | (m, score) :: rest => turnAll (z.insert m score) (z.turn turned m score) rest

/-- The members that copies have the other way round after one more call. -/
def turnCall (z : ScoreTable) (turned : OrdSet Bytes) : Call → OrdSet Bytes
  | .add pairs => z.turnAll turned pairs
  | .remove members => turned.eraseAll members

/-- The members that copies have the other way round after more calls. -/
def turnedBy (z : ScoreTable) (turned : OrdSet Bytes) : List Call → OrdSet Bytes
  | [] => turned
  | call :: rest => turnedBy (z.perform call).1 (z.turnCall turned call) rest

/-- **A score that a copy has right, or the other way round.** Only zeros are the other way
round. -/
structure Shows (turned : Bool) (score shown : Option Binary64) : Prop where
  eq : shown = if turned then score.map Binary64.negate else score
  zero : turned → ∃ x, score = some x ∧ x.magnitude = 0

/-- **A copy that is right but for the signs of some zeros.** -/
def Tracks (z : ScoreTable) (turned : OrdSet Bytes) (copy : ScoreTable) : Prop :=
  ∀ m, Shows (turned.contains m) (z.get? m) (copy.get? m)

/-- Whether all zeros have one sign. -/
def OneZero (scores : List Binary64) : Prop :=
  ∀ x ∈ scores, ∀ y ∈ scores, x.magnitude = 0 → y.magnitude = 0 → x = y

instance (scores : List Binary64) : Decidable (OneZero scores) :=
  inferInstanceAs (Decidable
    (∀ x ∈ scores, ∀ y ∈ scores, x.magnitude = 0 → y.magnitude = 0 → x = y))

/-! ## One store -/

variable {z copy : ScoreTable} {turned : OrdSet Bytes} {previous shown : Option Binary64}
  {score : Binary64} {known : List Binary64}

theorem turnsZero_iff :
    turnsZero previous score ↔ score.magnitude = 0 ∧ previous = some score.negate := by
  rw [turnsZero, Bool.and_eq_true, beq_iff_eq, beq_iff_eq]

/-- A zero over the other zero is no change. -/
theorem isChange_of_turnsZero (h : turnsZero previous score) :
    isChange previous score = false := by
  obtain ⟨hzero, rfl⟩ := turnsZero_iff.1 h
  rcases Binary64.magnitude_eq_zero_iff.1 hzero with rfl | rfl <;> decide

/-- **Only a zero can be new without being a change.** -/
theorem eq_some_of_unchanged (hchange : ¬isChange previous score)
    (hturns : ¬turnsZero previous score) : previous = some score := by
  cases previous with
  | none => exact absurd rfl hchange
  | some x =>
    have hsame : x.sameNumber score := by simpa [isChange] using hchange
    rcases Binary64.Alike.of_sameNumber hsame with rfl | ⟨hx, hscore⟩
    · rfl
    · rcases Binary64.eq_or_eq_negate hx hscore with rfl | rfl
      · rfl
      · exact absurd (turnsZero_iff.2 ⟨hscore, rfl⟩) hturns

/-- **A score that is stored, and told of if it is a change.** -/
theorem Shows.store {turned : Bool} (h : Shows turned previous shown) (score : Binary64) :
    Shows (if turnsZero previous score then !turned else !isChange previous score && turned)
      (some score) (if isChange previous score then some score else shown) := by
  by_cases hturns : turnsZero previous score
  · obtain ⟨hzero, rfl⟩ := turnsZero_iff.1 hturns
    rw [if_pos hturns, isChange_of_turnsZero hturns, h.eq]
    refine ⟨?_, fun _ => ⟨score, rfl, hzero⟩⟩
    cases turned with
    | false => rfl
    | true => exact congrArg some score.negate_negate
  · rw [if_neg hturns]
    by_cases hchange : isChange previous score
    · rw [hchange]
      exact ⟨rfl, nofun⟩
    · have hsame := eq_some_of_unchanged hchange hturns
      rw [Bool.eq_false_iff.2 hchange, ← hsame]
      exact h

theorem contains_turn (z : ScoreTable) (turned : OrdSet Bytes) (m : Bytes) (score : Binary64)
    (j : Bytes) : (z.turn turned m score).contains j
      = if j = m then
          if turnsZero (z.get? m) score then !turned.contains m
          else !isChange (z.get? m) score && turned.contains m
        else turned.contains j := by
  unfold turn
  by_cases hj : j = m
  · subst hj
    split
    · split <;> simp_all
    · split <;> simp_all
  · split
    · split <;> simp [hj]
    · split <;> simp [hj]

theorem Tracks.store (h : Tracks z turned copy) (m : Bytes) (score : Binary64) :
    Tracks (z.insert m score) (z.turn turned m score)
      (if isChange (z.get? m) score then copy.insert m score else copy) := by
  intro j
  have hcopy : (if isChange (z.get? m) score then copy.insert m score else copy).get? j
      = if j = m then if isChange (z.get? m) score then some score else copy.get? m
        else copy.get? j := by
    split
    · exact OrdMap.get?_insert copy m j score
    · split
      · next hj => rw [hj]
      · rfl
  rw [contains_turn, OrdMap.get?_insert, hcopy]
  split
  · exact (h m).store score
  · exact h j

/-! ## One call -/

theorem Tracks.storeAll (h : Tracks z turned copy) (pairs : List (Bytes × Binary64)) :
    Tracks (storeAll z pairs).1 (z.turnAll turned pairs)
      ((storeAll z pairs).2.foldl (fun z pair => z.insert pair.1 pair.2) copy) := by
  induction pairs generalizing z turned copy with
  | nil => exact h
  | cons pair rest ih =>
    obtain ⟨m, score⟩ := pair
    have hrest := ih (h.store m score)
    simp only [ScoreTable.storeAll, turnAll]
    split at hrest
    · next hchange =>
      rw [if_pos hchange]
      exact hrest
    · next hchange =>
      rw [if_neg hchange]
      exact hrest

theorem get?_foldl_erase (copy : ScoreTable) (members : List Bytes) (m : Bytes) :
    (members.foldl OrdMap.erase copy).get? m = if m ∈ members then none else copy.get? m := by
  induction members generalizing copy with
  | nil => simp
  | cons n rest ih =>
    rw [List.foldl_cons, ih, OrdMap.get?_erase]
    by_cases hm : m = n <;> simp [hm]

theorem Tracks.removePresent (h : Tracks z turned copy) (members : List Bytes) :
    Tracks (removePresent z members).1 (turned.eraseAll members)
      ((removePresent z members).2.foldl OrdMap.erase copy) := by
  intro m
  rw [get?_foldl_erase, OrdSet.contains_eraseAll, get?_removePresent]
  by_cases hm : m ∈ members
  · have hgone : (if m ∈ (ScoreTable.removePresent z members).2 then none else copy.get? m)
        = none := by
      -- What was not there is not removed from the copy, which does not have it either.
      by_cases hthere : z.contains m
      · exact if_pos (mem_removePresent.2 ⟨hm, hthere⟩)
      · have hnone : z.get? m = none := by simpa [OrdMap.contains_eq] using hthere
        have hcopy := (h m).eq
        simp only [hnone, Option.map_none, ite_self] at hcopy
        rw [hcopy, ite_self]
    rw [hgone, if_pos hm]
    simp only [hm]
    exact ⟨rfl, nofun⟩
  · have hkept : m ∉ (ScoreTable.removePresent z members).2 := fun hin =>
      hm (mem_removePresent.1 hin).1
    rw [if_neg hm, if_neg hkept]
    simpa [hm] using h m

/-- An emitted delta, if there is one, takes an entity as far as the delta does. -/
theorem applyAll_unless {unchanged : Bool} {e e' : Entity} {delta : Delta}
    (h : e.apply delta = (.ok (), e')) (hunchanged : unchanged → e' = e) :
    e.applyAll (if unchanged then none else some delta).toList = (.ok (), e') := by
  cases unchanged with
  | false =>
    show e.applyAll [delta] = _
    rw [Entity.applyAll, h]
    rfl
  | true =>
    rw [hunchanged rfl]
    rfl

/-- **A copy that takes the delta of a call stays right but for the signs of zeros.** -/
theorem Tracks.perform (e : Entity) (h : Tracks z turned copy) (call : Call) :
    ∃ copy', (e.withScores copy).applyAll (z.perform call).2.toList
        = (.ok (), e.withScores copy')
      ∧ Tracks (z.perform call).1 (z.turnCall turned call) copy' := by
  cases call with
  | add pairs =>
    refine ⟨_, applyAll_unless rfl fun hempty => ?_, h.storeAll pairs⟩
    rw [List.isEmpty_iff.1 hempty]
    rfl
  | remove members =>
    refine ⟨_, applyAll_unless rfl fun hempty => ?_, h.removePresent members⟩
    rw [List.isEmpty_iff.1 hempty]
    rfl

/-! ## All calls -/

theorem Tracks.refl (z : ScoreTable) : Tracks z .empty z := fun _ => ⟨rfl, nofun⟩

theorem Tracks.performAll (e : Entity) (h : Tracks z turned copy) (calls : List Call) :
    ∃ copy', (e.withScores copy).applyAll (z.performAll calls).2 = (.ok (), e.withScores copy')
      ∧ Tracks (z.performAll calls).1 (z.turnedBy turned calls) copy' := by
  induction calls generalizing z turned copy with
  | nil => exact ⟨copy, rfl, h⟩
  | cons call rest ih =>
    obtain ⟨copy₁, hcall, h₁⟩ := h.perform e call
    obtain ⟨copy₂, hrest, h₂⟩ := ih h₁
    refine ⟨copy₂, ?_, h₂⟩
    rw [ScoreTable.performAll, Entity.applyAll_append hcall]
    exact hrest

theorem Tracks.eq_iff (h : Tracks z turned copy) : copy = z ↔ turned.isEmpty := by
  rw [OrdSet.isEmpty_iff]
  constructor
  · rintro rfl m
    refine Bool.eq_false_iff.2 fun hturned => ?_
    obtain ⟨x, hx, hzero⟩ := (h m).zero hturned
    have hm := (h m).eq
    rw [if_pos hturned, hx] at hm
    exact Binary64.negate_ne hzero (Option.some.inj hm).symm
  · intro hempty
    refine OrdMap.ext_get? fun m => ?_
    have hm := (h m).eq
    rwa [hempty m] at hm

/-- The list by score tells the table. -/
theorem ranked_inj {z z' : ScoreTable} : z.ranked = z'.ranked ↔ z = z' := by
  have hmem : ∀ (z : ScoreTable) (m : Bytes) (x : Binary64),
      z.get? m = some x ↔ (m, x) ∈ z.ranked := fun z m x =>
    OrdMap.get?_eq_some_iff.trans List.mem_mergeSort.symm
  refine ⟨fun h => OrdMap.ext_get? fun m => Option.ext fun x => ?_, congrArg ranked⟩
  rw [hmem, hmem, h]

/-! ## Zeros of one sign -/

theorem not_turnsZero (hone : OneZero known) (hprevious : ∀ x, previous = some x → x ∈ known)
    (hscore : score ∈ known) : ¬turnsZero previous score := by
  intro hturns
  obtain ⟨hzero, hother⟩ := turnsZero_iff.1 hturns
  exact Binary64.negate_ne hzero
    (hone _ (hprevious _ hother) _ hscore (Binary64.magnitude_negate hzero) hzero)

theorem mem_scores {x : Binary64} : x ∈ z.scores ↔ ∃ m, z.get? m = some x := by
  simp only [scores, List.mem_map, OrdMap.get?_eq_some_iff]
  exact ⟨fun ⟨pair, hpair, hx⟩ => ⟨pair.1, hx ▸ hpair⟩, fun ⟨m, hm⟩ => ⟨_, hm, rfl⟩⟩

theorem scores_insert (h : z.scores ⊆ known) (hscore : score ∈ known) (m : Bytes) :
    scores (z.insert m score) ⊆ known := by
  intro x hx
  obtain ⟨j, hj⟩ := mem_scores.1 hx
  rw [OrdMap.get?_insert] at hj
  split at hj
  · exact Option.some.inj hj ▸ hscore
  · exact h (mem_scores.2 ⟨j, hj⟩)

theorem scores_removePresent (h : z.scores ⊆ known) (members : List Bytes) :
    (removePresent z members).1.scores ⊆ known := by
  intro x hx
  obtain ⟨m, hm⟩ := mem_scores.1 hx
  rw [get?_removePresent] at hm
  split at hm
  · cases hm
  · exact h (mem_scores.2 ⟨m, hm⟩)

theorem turnAll_empty (hone : OneZero known) (hz : z.scores ⊆ known)
    {pairs : List (Bytes × Binary64)} (hpairs : pairs.map (·.2) ⊆ known) :
    z.turnAll .empty pairs = .empty ∧ (storeAll z pairs).1.scores ⊆ known := by
  induction pairs generalizing z with
  | nil => exact ⟨rfl, hz⟩
  | cons pair rest ih =>
    obtain ⟨m, score⟩ := pair
    rw [List.map_cons, List.cons_subset] at hpairs
    have hturns : ¬turnsZero (z.get? m) score :=
      not_turnsZero hone (fun x hx => hz (mem_scores.2 ⟨m, hx⟩)) hpairs.1
    have hnone : z.turn .empty m score = .empty := by
      rw [turn, if_neg hturns]
      split <;> rfl
    rw [turnAll, hnone]
    exact ih (scores_insert hz hpairs.1 m) hpairs.2

/-- Where all zeros have one sign, copies have none the other way round. -/
theorem turnedBy_empty (hone : OneZero known) (hz : z.scores ⊆ known) {calls : List Call}
    (hcalls : calls.flatMap Call.scores ⊆ known) : z.turnedBy .empty calls = .empty := by
  induction calls generalizing z with
  | nil => rfl
  | cons call rest ih =>
    rw [List.flatMap_cons, List.append_subset] at hcalls
    have hcall : z.turnCall .empty call = .empty ∧ (z.perform call).1.scores ⊆ known := by
      cases call with
      | add pairs => exact turnAll_empty hone hz hcalls.1
      | remove members =>
        refine ⟨OrdSet.ext_contains fun m => ?_, scores_removePresent hz members⟩
        simp [turnCall]
    rw [turnedBy, hcall.1]
    exact ih hcall.2 hcalls.2

/-! ## Copies -/

/-- **What a copy of a sorted set has after calls on it**, if it starts equal and takes every delta
in order; it is so after each call of a run, since the calls up to there are calls. It has the
members of the table, with the same bits for their scores, except that the members that the calls
have turned are zeros of the other sign. So the copy is the table if no member is turned, and only
then, and only then it lists its members in the same order. No member is ever turned where all
zeros, of the table and of the calls, have one sign. -/
theorem copies_right_iff (e : Entity) (z : ScoreTable) (calls : List Call) :
    let last := (z.performAll calls).1
    let turned := z.turnedBy .empty calls
    ∃ copy, (e.withScores z).applyAll (z.performAll calls).2 = (.ok (), e.withScores copy)
      ∧ (∀ m, copy.get? m
        = if turned.contains m then (last.get? m).map Binary64.negate else last.get? m)
      ∧ (∀ m, turned.contains m → ∃ x, last.get? m = some x ∧ x.magnitude = 0)
      ∧ (copy = last ↔ turned.isEmpty)
      ∧ (copy.ranked = last.ranked ↔ turned.isEmpty)
      ∧ (OneZero (z.scores ++ calls.flatMap Call.scores) → turned.isEmpty) := by
  intro last turned
  obtain ⟨copy, hcopy, htracks⟩ := (Tracks.refl z).performAll e calls
  refine ⟨copy, hcopy, fun m => (htracks m).eq, fun m => (htracks m).zero, htracks.eq_iff,
    ranked_inj.trans htracks.eq_iff, fun hone => ?_⟩
  have hnone : turned = .empty :=
    turnedBy_empty hone (List.subset_append_left ..) (List.subset_append_right ..)
  rw [hnone]
  rfl

/-- A zero over the other zero is not told of: the copy keeps its score, and so its order. -/
theorem copy_keeps_order :
    let z : ScoreTable := .ofList [([97], .zero), ([98], .zero)]
    let e : Entity := { content := .sortedSet z }
    let calls : List Call := [.add [([98], Binary64.zero.negate)]]
    (e.withScores z).applyAll (z.performAll calls).2 = (.ok (), e.withScores z)
      ∧ (z.performAll calls).1.get? [98] = some Binary64.zero.negate
      ∧ z.get? [98] = some .zero
      ∧ (z.performAll calls).1.ranked ≠ z.ranked := by
  intro z e calls
  have hstored : (z.performAll calls).1.get? [98] = some Binary64.zero.negate := by decide
  have hkept : z.get? [98] = some .zero := by decide
  refine ⟨rfl, hstored, hkept, fun h => ?_⟩
  rw [ranked_inj.1 h, hkept] at hstored
  exact absurd hstored (by decide)

/-- Three zeros are turned. One is turned back by the same call, a NaN puts one right, and one stays
as it is. Where only such zeros are stored as stood there, nothing is turned. -/
theorem copies_right_iff_turned :
    let z : ScoreTable := .ofList [([97], .zero), ([98], .zero), ([99], .zero)]
    let e : Entity := { content := .sortedSet z, expiration := 5 }
    let minus : Binary64 := Binary64.zero.negate
    let calls : List Call := [.add [([97], minus), ([98], minus), ([99], minus), ([97], .zero)],
      .remove [[100]], .add [([98], ⟨0x7FF8000000000000⟩), ([100], minus)]]
    let plain : List Call := [.add [([97], .zero), ([100], .zero)], .remove [[98]]]
    z.turnedBy .empty calls = .ofList [[99]]
      ∧ (∃ copy, (e.withScores z).applyAll (z.performAll calls).2 = (.ok (), e.withScores copy)
          ∧ copy.get? [98] = some ⟨0x7FF8000000000000⟩
          ∧ copy.get? [99] = some .zero
          ∧ (∃ x, (z.performAll calls).1.get? [99] = some x ∧ x.magnitude = 0)
          ∧ copy.ranked ≠ (z.performAll calls).1.ranked)
      ∧ OneZero (z.scores ++ plain.flatMap Call.scores) ∧ (z.turnedBy .empty plain).isEmpty := by
  intro z e minus calls plain
  have hturned : z.turnedBy .empty calls = .ofList [[99]] := by decide +kernel
  have hone : OneZero (z.scores ++ plain.flatMap Call.scores) := by decide +kernel
  obtain ⟨copy, hcopy, hscores, hzeros, -, hranked, -⟩ := copies_right_iff e z calls
  obtain ⟨-, -, -, -, -, -, hplain⟩ := copies_right_iff e z plain
  rw [hturned] at hscores hzeros hranked
  refine ⟨hturned, ⟨copy, hcopy, ?_, ?_, hzeros [99] (by decide), fun h => ?_⟩, hone, hplain hone⟩
  · rw [hscores]
    decide +kernel
  · rw [hscores]
    decide +kernel
  · exact absurd (hranked.1 h) (by decide)

end ScoreTable

end DataGrid
