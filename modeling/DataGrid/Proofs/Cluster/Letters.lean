import DataGrid.Proofs.Cluster.Interleaving
import DataGrid.Proofs.Cluster.Start

/-!
# Letters — what is on its way between members

Between a writer and another member there is one frame at most: the update on its way, or the
answer on its way back, or neither (`Phase`). At every place there are exactly the letters that
are on their way there, each once, and that stays so when a write is launched, applied and
answered (`Posted`).
-/

namespace DataGrid

open Network (localMember)

/-- How far a write has come between its writer and another member. -/
inductive Phase where
  /-- The update has arrived and is not yet taken in. -/
  | sent
  /-- The update is applied, and the answer is not yet taken in. -/
  | answered
  | done
  deriving DecidableEq, Repr

/-- A frame that has arrived, and who sent it. -/
inductive Letter where
  | update (sender : Nat)
  | answer (sender : Nat)
  deriving DecidableEq, Repr

def Letter.sender : Letter → Nat
  | .update sender => sender
  | .answer sender => sender

/-- A letter for a member that waits under a number, as it arrives. -/
def Letter.arrival (config : Config) (frames : Nat → Bytes) (id : Int32) : Letter → Arrival
  | .update sender => (localMember sender, frames sender)
  | .answer sender => (localMember sender, answerFrame config id)

/-- Whether the letters at every place are those that are on their way, each once. -/
structure Posted (count : Nat) (phase : Nat → Nat → Phase) (mail : Nat → List Letter) : Prop where
  nodup : ∀ j, j < count → (mail j).Nodup
  update : ∀ i j, j < count → (.update i ∈ mail j ↔ i < count ∧ i ≠ j ∧ phase i j = .sent)
  answer : ∀ i j, j < count → (.answer i ∈ mail j ↔ i < count ∧ i ≠ j ∧ phase j i = .answered)

/-! ## Letters as they arrive -/

theorem arrival_fst (config : Config) (frames : Nat → Bytes) (id : Int32) (l : Letter) :
    (l.arrival config frames id).1 = localMember l.sender := by
  cases l <;> rfl

/-- Letters arrive as before if no frame or number changes that they are about. -/
theorem map_arrival_congr {config : Config} {frames frames' : Nat → Bytes} {id id' : Int32}
    {mail : List Letter} (hframes : ∀ i, .update i ∈ mail → frames i = frames' i)
    (hid : ∀ i, .answer i ∈ mail → id = id') :
    mail.map (Letter.arrival config frames id) = mail.map (Letter.arrival config frames' id') := by
  refine List.map_congr_left fun l hl => ?_
  cases l with
  | update i => rw [Letter.arrival, Letter.arrival, hframes i hl]
  | answer i => rw [Letter.arrival, Letter.arrival, hid i hl]

theorem eraseP_eq_erase {α : Type} [DecidableEq α] {p : α → Bool} {l : List α} {a : α}
    (h : l.find? p = some a) : l.eraseP p = l.erase a := by
  induction l with
  | nil => cases h
  | cons b l ih =>
    by_cases hb : p b
    · rw [List.find?_cons_of_pos hb] at h
      obtain rfl := Option.some.inj h
      rw [List.eraseP_cons_of_pos hb, List.erase_cons_head]
    · rw [List.find?_cons_of_neg hb] at h
      have hne : b ≠ a := fun heq => hb (heq ▸ List.find?_some h)
      rw [List.eraseP_cons_of_neg hb, List.erase_cons_tail (by simpa using hne), ih h]

/-- The oldest frame from a member is that of the oldest letter from it, and the others stay. -/
theorem exists_letter {config : Config} {frames : Nat → Bytes} {id : Int32} {mail : List Letter}
    {i : Nat} {arrival : Arrival}
    (h : (mail.map (Letter.arrival config frames id)).find? (·.1 = localMember i) = some arrival) :
    ∃ l ∈ mail, l.sender = i ∧ arrival = l.arrival config frames id
      ∧ (mail.map (Letter.arrival config frames id)).eraseP (·.1 = localMember i)
        = (mail.erase l).map (Letter.arrival config frames id) := by
  have hsender : ((fun a : Arrival => decide (a.1 = localMember i))
      ∘ Letter.arrival config frames id) = fun l : Letter => decide (l.sender = i) := by
    funext l
    simp only [Function.comp, arrival_fst]
    exact decide_eq_decide.2 ⟨localMember_injective, fun heq => heq ▸ rfl⟩
  rw [List.find?_map, hsender] at h
  obtain ⟨l, hl, rfl⟩ := Option.map_eq_some_iff.1 h
  refine ⟨l, List.mem_of_find?_eq_some hl, by simpa using List.find?_some hl, rfl, ?_⟩
  rw [List.eraseP_map, hsender, eraseP_eq_erase hl]

/-! ## Letters on their way -/

namespace Posted

variable {count : Nat} {phase : Nat → Nat → Phase} {mail : Nat → List Letter} {i j : Nat}

/-- A writer's updates go out. -/
theorem launched (h : Posted count phase mail) (hi : i < count) (hdone : ∀ j, phase i j = .done)
    {js : List Nat} (hjs : ∀ j, j ∈ js ↔ j < count ∧ j ≠ i) :
    Posted count (Function.update phase i fun j => if j ∈ js then .sent else .done)
      fun j => if j ∈ js then mail j ++ [.update i] else mail j := by
  obtain ⟨hnodup, hupdate, hanswer⟩ := h
  have hrow : ∀ a b, Function.update phase i (fun j => if j ∈ js then .sent else .done) a b
      = if a = i then (if b ∈ js then .sent else .done) else phase a b := by
    intro a b
    rw [Function.update_apply]
    split <;> rfl
  refine ⟨fun b hb => ?_, fun a b hb => ?_, fun a b hb => ?_⟩
  · have hnew : .update i ∉ mail b := by simp [hupdate i b hb, hdone b]
    grind
  · rw [hrow]
    grind
  · rw [hrow]
    grind

/-- An update is taken in, and the answer goes back. -/
theorem applied (h : Posted count phase mail) (hi : i < count) (hj : j < count) (hne : i ≠ j)
    (hphase : phase i j = .sent) :
    Posted count (Function.update phase i (Function.update (phase i) j .answered))
      (Function.update (Function.update mail j ((mail j).erase (.update i))) i
        (mail i ++ [.answer j])) := by
  obtain ⟨hnodup, hupdate, hanswer⟩ := h
  have herase : ∀ l, l ∈ (mail j).erase (.update i) ↔ l ≠ .update i ∧ l ∈ mail j :=
    fun _ => (hnodup j hj).mem_erase_iff
  refine ⟨fun b hb => ?_, fun a b hb => ?_, fun a b hb => ?_⟩
  · have hnew : .answer j ∉ mail i := by simp [hanswer j i hi, hphase]
    simp only [Function.update_apply]
    grind
  · simp only [Function.update_apply]
    grind
  · simp only [Function.update_apply]
    grind

/-- An answer is taken in. -/
theorem answered (h : Posted count phase mail) (hi : i < count) (hj : j < count)
    (hphase : phase i j = .answered) :
    Posted count (Function.update phase i (Function.update (phase i) j .done))
      (Function.update mail i ((mail i).erase (.answer j))) := by
  obtain ⟨hnodup, hupdate, hanswer⟩ := h
  have herase : ∀ l, l ∈ (mail i).erase (.answer j) ↔ l ≠ .answer j ∧ l ∈ mail i :=
    fun _ => (hnodup i hi).mem_erase_iff
  refine ⟨fun b hb => ?_, fun a b hb => ?_, fun a b hb => ?_⟩
  · simp only [Function.update_apply]
    grind
  · simp only [Function.update_apply]
    grind
  · simp only [Function.update_apply]
    grind

end Posted

end DataGrid
