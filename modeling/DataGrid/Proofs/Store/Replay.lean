import DataGrid.Proofs.Entity.Wire
import DataGrid.Store.Memory

/-!
# Replay — the log of a memory store gives its copies

A put makes one copy and logs one record, of the delta if the copy that was there takes it and of
the whole value if not, or it fails and leaves the store as it was (`MemoryStore.put_eq`). Every
record that is logged makes of the copies before it the copies after it (`MemoryStore.Moves`). So
whatever a store is told, in whatever order, the log read from the start gives the copies
(`MemoryStore.replay_log`).
-/

namespace DataGrid

/-! ## Definitions -/

namespace WriteRecord

/-- What a record makes of copies. A whole value is read from its snapshot, and a delta is read and
applied to the copy under its key, which must be there and take it. -/
def replay (copies : OrdMap Bytes Entity) :
    WriteRecord → Except DeltaError (OrdMap Bytes Entity)
  | .full key octets =>
    match Entity.ofSnapshot octets with
    | .error fault => .error (.wire fault)
    | .ok copy => .ok (copies.insert key copy)
  | .delta key octets =>
    match copies.get? key with
    | none => .error (.store ("no copy of " ++ Text.lossy key))
    | some copy =>
      match copy.applyBytes octets with
      | (.error e, _) => .error e
      | (.ok (), copy) => .ok (copies.insert key copy)
  | .remove key => .ok (copies.erase key)

/-- What a log makes of copies, record by record. -/
def replayAll (copies : OrdMap Bytes Entity) (log : List WriteRecord) :
    Except DeltaError (OrdMap Bytes Entity) :=
  log.foldlM replay copies

end WriteRecord

/-- One thing that a store is told. -/
inductive StoreCall where
  | put (key : Bytes) (e : Entity)
  | remove (key : Bytes)

/-- Whether the lengths in what is staged can be written. A value that is too long for a snapshot is
not stored, so nothing is asked of its lengths. -/
def StoreCall.Fits : StoreCall → Prop
  | .put _ e => ∀ delta, e.staged = some delta → delta.Fits
  | .remove _ => True

namespace MemoryStore

/-- The store after a call. -/
def call (s : MemoryStore) : StoreCall → MemoryStore
  | .put key e => (s.put key e).2.2
  | .remove key => (s.remove key).2

/-- The store after calls, one after another. -/
def callAll (s : MemoryStore) (calls : List StoreCall) : MemoryStore := calls.foldl call s

/-- The store with a copy under a key, and the record of the write that made it. -/
def write (s : MemoryStore) (key : Bytes) (copy : Entity) (record : WriteRecord) : MemoryStore :=
  { s with copies := s.copies.insert key copy, log := s.log ++ [record] }

/-- What a store ships of an entity as a delta: the staged one, with the copy that it makes, if
the store knows deltas and has a copy that takes it. -/
def applied? (s : MemoryStore) (key : Bytes) (e : Entity) : Option (Delta × Entity) :=
  if s.deltaAware then do
    let delta ← e.staged
    let copy ← s.get? key
    match copy.apply delta with
    | (.ok (), copy) => return (delta, copy)
    | (.error _, _) => none
  else none

/-- The entity that is left when it was put. A store that knows deltas takes the stage. -/
def left (s : MemoryStore) (e : Entity) : Entity := if s.deltaAware then e.unstage else e

/-- **Whether a store moved by one record**: the record was logged, and it makes of the copies
before it the copies after it. -/
structure Moves (s s' : MemoryStore) (record : WriteRecord) : Prop where
  log : s'.log = s.log ++ [record]
  replay : record.replay s.copies = .ok s'.copies

/-- Whether the log of a store gives its copies. -/
def Logged (s : MemoryStore) : Prop := WriteRecord.replayAll .empty s.log = .ok s.copies

/-! ## What a put does -/

variable {s s' : MemoryStore} {key : Bytes} {e e' : Entity} {record : WriteRecord}

/-- **A put ships the delta if the copy takes it, and the whole value if not.** -/
theorem put_eq (s : MemoryStore) (key : Bytes) (e : Entity) : s.put key e =
    match s.applied? key e with
    | some (delta, copy) => (.ok (), e.unstage, s.write key copy (.delta key delta.encode))
    | none => ((s.putFull key e).1, s.left e, (s.putFull key e).2) := by
  obtain ⟨deltaAware, copies, log⟩ := s
  obtain ⟨content, expiration, staged⟩ := e
  cases deltaAware with
  | false => rfl
  | true =>
    cases staged with
    | none => rfl
    | some delta =>
      simp only [put, applied?, Entity.capture, Bool.not_true, Bool.false_eq_true, if_false,
        if_true]
      cases hcopy : get? ⟨true, copies, log⟩ key with
      | none => rfl
      | some copy =>
        simp only [Option.bind_eq_bind, Option.bind_some]
        cases happly : copy.apply delta with
        | mk result copy' =>
          cases result with
          | ok _ => rfl
          | error why =>
            -- The copy that refused the delta is put back as it was.
            obtain rfl := Entity.apply_of_error happly
            have hslot : copies.get? key = some copy' := hcopy
            simp only [OrdMap.insert_of_get? hslot]
            rfl

theorem putFull_of_ok {copy : Entity} (h : Entity.ofSnapshot e.snapshot = .ok copy) :
    s.putFull key e = (.ok (), s.write key copy (.full key e.snapshot)) := by
  simp only [putFull, h]
  rfl

theorem putFull_of_error {fault : Fault} (h : Entity.ofSnapshot e.snapshot = .error fault) :
    s.putFull key e = (.error (.wire fault), s) := by
  simp only [putFull, h]

/-- What is shipped as a delta is staged, and makes the new copy of the one that is there. -/
theorem applied?_eq_some {delta : Delta} {copy' : Entity}
    (h : s.applied? key e = some (delta, copy')) :
    e.staged = some delta
      ∧ ∃ copy, s.get? key = some copy ∧ copy.apply delta = (.ok (), copy') := by
  rw [applied?] at h
  split at h
  · obtain ⟨delta', hstaged, h⟩ := Option.bind_eq_some_iff.1 h
    obtain ⟨copy, hcopy, h⟩ := Option.bind_eq_some_iff.1 h
    split at h
    · next happly =>
      obtain ⟨rfl, rfl⟩ := Prod.mk.inj (Option.some.inj h)
      exact ⟨hstaged, copy, hcopy, happly⟩
    · cases h
  · cases h

/-! ## What a record makes of the copies -/

/-- A whole value is replayed as the copy that was read from it. -/
theorem moves_full (h : Entity.ofSnapshot e.snapshot = .ok e') :
    s.Moves (s.write key e' (.full key e.snapshot)) (.full key e.snapshot) where
  log := rfl
  replay := by
    rw [WriteRecord.replay, h]
    rfl

/-- A delta is replayed as it was applied. -/
theorem moves_delta {delta : Delta} {copy copy' : Entity} (hdelta : delta.Fits)
    (hcopy : s.get? key = some copy) (happly : copy.apply delta = (.ok (), copy')) :
    s.Moves (s.write key copy' (.delta key delta.encode)) (.delta key delta.encode) where
  log := rfl
  replay := by
    have hslot : s.copies.get? key = some copy := hcopy
    have hread := Delta.ofBytes_encode hdelta
    simp only [WriteRecord.replay, hslot, Entity.applyBytes_eq hread, happly]
    rfl

/-- **A put moves a store by one record, or leaves it as it was.** -/
theorem moves_put (key : Bytes) (h : ∀ delta, e.staged = some delta → delta.Fits) :
    (s.put key e).2.2 = s ∨ ∃ record, s.Moves (s.put key e).2.2 record := by
  rw [put_eq]
  cases happlied : s.applied? key e with
  | some made =>
    obtain ⟨hstaged, copy, hcopy, happly⟩ := applied?_eq_some happlied
    exact .inr ⟨_, moves_delta (h _ hstaged) hcopy happly⟩
  | none =>
    cases hread : Entity.ofSnapshot e.snapshot with
    | error fault =>
      rw [putFull_of_error hread]
      exact .inl rfl
    | ok copy =>
      rw [putFull_of_ok hread]
      exact .inr ⟨_, moves_full hread⟩

/-- A call moves a store by one record, or leaves it as it was. -/
theorem moves_call {c : StoreCall} (h : c.Fits) :
    s.call c = s ∨ ∃ record, s.Moves (s.call c) record := by
  cases c with
  | put key e => exact moves_put key h
  | remove key => exact .inr ⟨.remove key, rfl, rfl⟩

/-! ## The log -/

theorem logged_new (deltaAware : Bool) : Logged { deltaAware } := rfl

theorem Moves.logged (h : s.Moves s' record) (hlogged : s.Logged) : s'.Logged := by
  rw [Logged, h.log, WriteRecord.replayAll, List.foldlM_append]
  calc _ = (do
          let copies ← WriteRecord.replayAll .empty s.log
          [record].foldlM WriteRecord.replay copies) := rfl
    _ = [record].foldlM WriteRecord.replay s.copies := by rw [hlogged]; rfl
    _ = .ok s'.copies := by rw [List.foldlM_cons, h.replay]; rfl

/-- Every call keeps it so that the log gives the copies. -/
theorem Logged.call {c : StoreCall} (h : s.Logged) (hc : c.Fits) : (s.call c).Logged := by
  rcases moves_call hc with hsame | ⟨record, hmoves⟩
  · rwa [hsame]
  · exact hmoves.logged h

theorem Logged.callAll {calls : List StoreCall} (h : s.Logged) (hcalls : ∀ c ∈ calls, c.Fits) :
    (s.callAll calls).Logged := by
  induction calls generalizing s with
  | nil => exact h
  | cons c rest ih =>
    obtain ⟨hc, hrest⟩ := List.forall_mem_cons.1 hcalls
    exact ih (h.call hc) hrest

/-- **The log of a store gives its copies.** Whatever a new store was told, of whatever entities,
staged deltas and keys, reading its log record by record from no copies at all does not fail, and
makes the copies that the store has, with every score bit for bit. -/
theorem replay_log (deltaAware : Bool) (calls : List StoreCall) (h : ∀ c ∈ calls, c.Fits) :
    WriteRecord.replayAll .empty (callAll { deltaAware } calls).log
      = .ok (callAll { deltaAware } calls).copies :=
  (logged_new deltaAware).callAll h

/-- A string that is put as a whole, an append that its copy takes, the same append again, a
removal of members that it refuses, and a delta under a key without a copy. -/
theorem replay_log_refused :
    let calls : List StoreCall := [
      .put [107] { content := .string { octets := [97] } },
      .put [107] {
        content := .string { octets := [97, 98], sequence := 1 }
        staged := some (.append 1 [98]) },
      .put [107] {
        content := .string { octets := [97, 98], sequence := 1 }
        staged := some (.append 1 [98]) },
      .put [107] { content := .string { octets := [99] }, staged := some (.rems [[98]]) },
      .remove [108],
      .put [108] {
        content := .sortedSet (.ofList [([1], ⟨0x8000000000000000⟩)])
        staged := some (.zadds [([1], ⟨0x8000000000000000⟩)]) }]
    let s := callAll { deltaAware := true } calls
    (∀ c ∈ calls, c.Fits) ∧ s.log.length = 6 ∧ s.copies.size = 2
      ∧ WriteRecord.replayAll .empty s.log = .ok s.copies := by
  intro calls s
  have hfits : ∀ c ∈ calls, c.Fits := by
    simp only [calls, List.forall_mem_cons]
    refine ⟨nofun, ?_, ?_, ?_, trivial, ?_, nofun⟩ <;> rintro _ ⟨⟩
    · exact (by decide : Encode.Fits [98])
    · exact (by decide : Encode.Fits [98])
    · exact (by decide : Encode.FitsAll [[98]])
    · exact (by decide : Encode.FitsAll [[1]])
  exact ⟨hfits, by decide +kernel, by decide +kernel, replay_log true calls hfits⟩

end MemoryStore

end DataGrid
