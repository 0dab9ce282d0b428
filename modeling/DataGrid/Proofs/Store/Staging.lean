import DataGrid.Proofs.Store.Mirror

/-!
# Staging — what any store sees of a commit, and what the commit leaves

Nothing is assumed of the store: it may read the entity, rewrite it, replace it with another, stage
something else, and answer what it likes. `Store.recorded` is the same store with a record of all
that it was told and of what it answered. A commit is one call and no more
(`Store.commitDelta_recorded`). The stage is there once: the first capture takes it and every later
one fails (`Entity.captured_of_staged`). Since nothing is staged after a commit, whatever the store
left, no put of a run of commits sees the delta of another (`Store.commitAll_recorded`).
-/

namespace DataGrid

/-! ## Definitions -/

/-- What a store is told, and what it answers. -/
structure Exchange where
  call : StoreCall
  answer : Except DeltaError Unit

/-- What a store does with an entity that it was handed. -/
inductive Handling where
  | capture
  /-- Another content and another expiration. -/
  | rewrite (content : Content → Content) (expiration : Int64 → Int64)

/-- Whether this is a capture. -/
def Handling.isCapture : Handling → Bool
  | .capture => true
  | .rewrite .. => false

namespace Entity

/-- The entity with another content and another expiration. -/
def rewrite (e : Entity) (content : Content → Content) (expiration : Int64 → Int64) : Entity :=
  { e with content := content e.content, expiration := expiration e.expiration }

/-- What the captures give while an entity is handled, one thing after another. -/
def captured : Entity → List Handling → List (Except DeltaError Delta)
  | _, [] => []
  | e, .capture :: rest => e.capture.1 :: e.capture.2.captured rest
  | e, .rewrite content expiration :: rest => (e.rewrite content expiration).captured rest

/-- What a store is told in a commit. -/
def told (e : Entity) (key : Bytes) (delta : Delta) : StoreCall :=
  if e.isEmpty then .remove key else .put key (e.stage delta)

end Entity

/-- What captures give of one delta: it comes once. -/
def Delta.once (delta : Delta) : ℕ → List (Except DeltaError Delta)
  | 0 => []
  | later + 1 => .ok delta :: .replicate later (.error .nothingStaged)

/-- One commit of an entity: what becomes of the entity before it, and what is committed. -/
structure Commit where
  content : Content → Content
  expiration : Int64 → Int64
  key : Bytes
  delta : Delta

/-- **Whether a call is one that the commit may make**: a removal of its key, or a put of an entity
under its key with its delta staged and no other. -/
def Commit.Makes (c : Commit) : StoreCall → Prop
  | .remove key => key = c.key
  | .put key e => key = c.key ∧ e.staged = some c.delta

namespace Store

variable {σ : Type}

/-- The store with a record of what it is told and what it answers. -/
def recorded (store : Store σ) : Store (σ × List Exchange) where
  put s key e :=
    let (answer, left, t) := store.put s.1 key e
    (answer, left, t, s.2 ++ [⟨.put key e, answer⟩])
  remove s key :=
    let (answer, t) := store.remove s.1 key
    (answer, t, s.2 ++ [⟨.remove key, answer⟩])

/-- What a store makes of a call: its answer, the entity that it leaves if it was handed one, and
its state. -/
def answer (store : Store σ) (s : σ) : StoreCall → Except DeltaError Unit × Option Entity × σ
  | .put key e =>
    let (answer, left, t) := store.put s key e
    (answer, some left, t)
  | .remove key =>
    let (answer, t) := store.remove s key
    (answer, none, t)

/-- Commits one after another. The entity that a commit leaves is rewritten for the next one. -/
def commitAll (store : Store σ) (s : σ) (e : Entity) : List Commit → Entity × σ
  | [] => (e, s)
  | c :: rest =>
    let (_, left, t) :=
      store.commitDelta s c.key (e.rewrite c.content c.expiration) c.delta
    store.commitAll t left rest

end Store

/-! ## The stage is there once -/

namespace Entity

variable {e : Entity}

theorem capture_of_staged {delta : Delta} (h : e.staged = some delta) :
    e.capture = (.ok delta, e.unstage) := by
  rw [capture, h]

theorem capture_of_unstaged (h : e.staged = none) :
    e.capture = (.error .nothingStaged, e) := by
  rw [capture, h]

/-- With nothing staged every capture fails, whatever is rewritten between them. -/
theorem captured_of_unstaged (h : e.staged = none) (handlings : List Handling) :
    e.captured handlings
      = .replicate (handlings.countP Handling.isCapture) (.error .nothingStaged) := by
  induction handlings generalizing e with
  | nil => rfl
  | cons handling rest ih =>
    cases handling with
    | capture =>
      rw [List.countP_cons_of_pos rfl, List.replicate_succ, ← ih h]
      show e.capture.1 :: e.capture.2.captured rest = _
      rw [capture_of_unstaged h]
    | rewrite content expiration =>
      rw [List.countP_cons_of_neg Bool.false_ne_true]
      exact ih h

/-- **What is staged is captured once.** The first capture gives it, and every later one fails,
whatever is rewritten before and between them. -/
theorem captured_of_staged {delta : Delta} (h : e.staged = some delta)
    (handlings : List Handling) :
    e.captured handlings = delta.once (handlings.countP Handling.isCapture) := by
  induction handlings generalizing e with
  | nil => rfl
  | cons handling rest ih =>
    cases handling with
    | capture =>
      rw [List.countP_cons_of_pos rfl]
      show e.capture.1 :: e.capture.2.captured rest = _
      rw [capture_of_staged h, captured_of_unstaged rfl]
      rfl
    | rewrite content expiration =>
      rw [List.countP_cons_of_neg Bool.false_ne_true]
      exact ih h

end Entity

/-! ## A commit is one call -/

namespace Store

variable {σ : Type} {e : Entity}

/-- A recorded store answers a call as the store does, and adds the call to the record. -/
theorem recorded_answer (store : Store σ) (s : σ) (record : List Exchange) (call : StoreCall) :
    store.recorded.answer (s, record) call =
      ((store.answer s call).1, (store.answer s call).2.1, (store.answer s call).2.2,
        record ++ [⟨call, (store.answer s call).1⟩]) := by
  cases call <;> rfl

theorem commitDelta_of_isEmpty (store : Store σ) (s : σ) (key : Bytes) (delta : Delta)
    (h : e.isEmpty) : store.commitDelta s key e delta =
      ((store.remove s key).1, e, (store.remove s key).2) := if_pos h

theorem commitDelta_of_not_isEmpty (store : Store σ) (s : σ) (key : Bytes) (delta : Delta)
    (h : ¬e.isEmpty) : store.commitDelta s key e delta =
      ((store.put s key (e.stage delta)).1, (store.put s key (e.stage delta)).2.1.unstage,
        (store.put s key (e.stage delta)).2.2) := if_neg h

/-- **A commit is its one call**: its result is the store's answer, and the entity that it leaves is
the one that the store left, if it had one, with nothing staged. -/
theorem commitDelta_eq (store : Store σ) (s : σ) (key : Bytes) (delta : Delta)
    (h : e.staged = none) : store.commitDelta s key e delta =
      ((store.answer s (e.told key delta)).1,
        ((store.answer s (e.told key delta)).2.1.getD e).unstage,
        (store.answer s (e.told key delta)).2.2) := by
  unfold Entity.told
  by_cases hempty : e.isEmpty
  · rw [commitDelta_of_isEmpty store s key delta hempty, if_pos hempty]
    show (_, e, _) = (_, e.unstage, _)
    rw [Entity.unstage_of_none h]
    rfl
  · rw [commitDelta_of_not_isEmpty store s key delta hempty, if_neg hempty]
    rfl

/-- A commit to a recorded store adds one exchange to the record, and does all else as it does to
the store. -/
theorem commitDelta_recorded (store : Store σ) (s : σ) (record : List Exchange) (key : Bytes)
    (delta : Delta) (h : e.staged = none) :
    store.recorded.commitDelta (s, record) key e delta =
      ((store.commitDelta s key e delta).1, (store.commitDelta s key e delta).2.1,
        (store.commitDelta s key e delta).2.2,
        record ++ [⟨e.told key delta, (store.commitDelta s key e delta).1⟩]) := by
  rw [commitDelta_eq _ _ _ _ h, commitDelta_eq _ _ _ _ h, recorded_answer]

/-- Nothing is staged after a commit, whatever the store left. -/
theorem commitDelta_staged (store : Store σ) (s : σ) (key : Bytes) (delta : Delta)
    (h : e.staged = none) : (store.commitDelta s key e delta).2.1.staged = none := by
  rw [commitDelta_eq _ _ _ _ h]
  rfl

/-- **Any store sees a delta once, and none is left.** An entity with nothing staged is committed
with a delta to a store that may be anything. The result is the store's own answer. The store is
called once. If there is nothing in the entity then it is told to remove the key, and the entity is
left as it was. If there is something then it is told to put the entity under the key, with just
that delta staged: however the store handles it, the first capture gives the delta and every later
one fails; and the entity is left as the store left it, but for the stage. Whatever the store
answered and whatever it staged, nothing is staged in the end. -/
theorem commitDelta_exact (store : Store σ) (s : σ) (key : Bytes) (e : Entity) (delta : Delta)
    (h : e.staged = none) :
    ∃ (call : StoreCall) (answer : Except DeltaError Unit) (left : Entity) (t : σ),
      store.commitDelta s key e delta = (answer, left, t)
        ∧ store.recorded.commitDelta (s, []) key e delta = (answer, left, t, [⟨call, answer⟩])
        ∧ left.staged = none
        ∧ if e.isEmpty then
            call = .remove key ∧ store.remove s key = (answer, t) ∧ left = e
          else
            call = .put key (e.stage delta)
              ∧ (∃ kept, store.put s key (e.stage delta) = (answer, kept, t)
                ∧ left = kept.unstage)
              ∧ ∀ handlings, (e.stage delta).captured handlings
                = delta.once (handlings.countP Handling.isCapture) := by
  refine ⟨e.told key delta, (store.commitDelta s key e delta).1,
    (store.commitDelta s key e delta).2.1, (store.commitDelta s key e delta).2.2, rfl,
    commitDelta_recorded store s [] key delta h, commitDelta_staged store s key delta h, ?_⟩
  by_cases hempty : e.isEmpty
  · rw [if_pos hempty, commitDelta_of_isEmpty store s key delta hempty]
    exact ⟨if_pos hempty, rfl, rfl⟩
  · rw [if_neg hempty, commitDelta_of_not_isEmpty store s key delta hempty]
    exact ⟨if_neg hempty, ⟨_, rfl, rfl⟩, Entity.captured_of_staged rfl⟩

/-- A store that replaces the entity with another, stages a delta of its own, and fails. -/
theorem commitDelta_exact_replaced :
    let e : Entity := { content := .set (.ofList [[97]]) }
    let other : Entity := { content := .string { octets := [98] }, staged := some (.rems [[99]]) }
    let store : Store ℕ := {
      put := fun s _ _ => (.error (.store "disk full"), other, s + 1)
      remove := fun s _ => (.ok (), s) }
    let delta : Delta := .adds [[97]]
    let recorded := store.recorded.commitDelta (0, []) [107] e delta
    e.staged = none ∧ e.isEmpty = false
      ∧ recorded.1 = .error (.store "disk full") ∧ recorded.2.1 = other.unstage
      ∧ recorded.2.2
        = (1, [⟨.put [107] (e.stage delta), .error (.store "disk full")⟩]) := by
  intro e other store delta recorded
  have hempty : ¬e.isEmpty := by decide
  obtain ⟨call, answer, left, t, -, hrecorded, -, hput⟩ :=
    commitDelta_exact store 0 [107] e delta rfl
  rw [if_neg hempty] at hput
  obtain ⟨hcall, ⟨kept, hkept, hleft⟩, -⟩ := hput
  obtain ⟨hanswer, hreplaced, ht⟩ : Except.error (.store "disk full") = answer ∧ other = kept
      ∧ 1 = t := by
    simpa [store] using hkept
  have hrun : recorded = (answer, left, t, [⟨call, answer⟩]) := hrecorded
  rw [hrun]
  exact ⟨rfl, by decide, hanswer.symm, by rw [hleft, hreplaced], by rw [hcall, ht, hanswer]⟩

/-! ## Commits one after another -/

/-- What a store is told in a commit is what the commit may tell it. -/
theorem told_makes (c : Commit) (e : Entity) : c.Makes (e.told c.key c.delta) := by
  unfold Entity.told
  split
  · exact rfl
  · exact ⟨rfl, rfl⟩

/-- **No put sees the delta of another commit.** However the entity is rewritten between commits,
and whatever the store answers and leaves, there is one exchange for each commit, in order, and
what is staged in it is the delta of that commit. -/
theorem commitAll_recorded (store : Store σ) (s : σ) (record : List Exchange)
    (commits : List Commit) (h : e.staged = none) :
    ∃ exchanges, store.recorded.commitAll (s, record) e commits
        = ((store.commitAll s e commits).1, (store.commitAll s e commits).2, record ++ exchanges)
      ∧ (store.commitAll s e commits).1.staged = none
      ∧ List.Forall₂ (fun c x => c.Makes x.call) commits exchanges := by
  induction commits generalizing s record e with
  | nil => exact ⟨[], by rw [List.append_nil]; rfl, h, .nil⟩
  | cons c rest ih =>
    have hedited : (e.rewrite c.content c.expiration).staged = none := h
    obtain ⟨answer, left, t, hcommit⟩ : ∃ answer left t, store.commitDelta s c.key
        (e.rewrite c.content c.expiration) c.delta = (answer, left, t) := ⟨_, _, _, rfl⟩
    have hleft : left.staged = none := by
      have := commitDelta_staged store s c.key c.delta hedited
      rwa [hcommit] at this
    have hrecorded := commitDelta_recorded store s record c.key c.delta hedited
    rw [hcommit] at hrecorded
    let x : Exchange := ⟨(e.rewrite c.content c.expiration).told c.key c.delta, answer⟩
    obtain ⟨exchanges, hrun, hstaged, hmade⟩ := ih t (record ++ [x]) hleft
    refine ⟨x :: exchanges, ?_, ?_, .cons ?_ hmade⟩
    · unfold commitAll
      rw [hrecorded, hcommit]
      rw [List.append_assoc] at hrun
      exact hrun
    · unfold commitAll
      rw [hcommit]
      exact hstaged
    · exact told_makes c _

end Store

end DataGrid
