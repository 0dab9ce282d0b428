import DataGrid.Proofs.Region.Answers
import DataGrid.Proofs.Region.Replicas

/-!
# Mending — what a payload makes of a copy that differs

A copy may differ from the writer's in any way. A whole value, or its removal, leaves the writer's
entry at every copy. A delta leaves what it makes of the copy's entry; a copy that has none, or
whose entry does not take the delta, stays as it is and asks for the whole value
(`RegionState.mend`). So in the end every copy has the entry that `Payload.mended` says, and no
other entry of it has changed.
-/

namespace DataGrid

/-! ## Definitions -/

namespace Payload

/-- The payload that tells of what is under a key. -/
def whole : Option Entity → Payload
  | some e => .full e.snapshot
  | none => .destroy

/-- **The entry that a payload leaves at a copy in the end**, by the copy's entry of before and the
writer's entry: what the delta makes of an entry that takes it, and otherwise the writer's. -/
def mended (p : Payload) (copy own : Option Entity) : Option Entity :=
  match p, copy with
  | .delta octets, some e =>
    match e.applyBytes octets with
    | (.ok (), e) => e.kept
    | (.error _, _) => own
  | _, _ => own

/-- Whether a payload is a delta and a copy's entry does not take it: there is none, or it refuses
the delta. -/
def rejectedBy (p : Payload) (copy : Option Entity) : Bool :=
  match p, copy with
  | .delta _, none => true
  | .delta octets, some e => !(e.applyBytes octets).1.isOk
  | _, _ => false

variable {p : Payload} {copy own : Option Entity}

theorem mended_whole (slot copy own : Option Entity) : (whole slot).mended copy own = own := by
  cases slot <;> rfl

theorem rejectedBy_whole (slot copy : Option Entity) : (whole slot).rejectedBy copy = false := by
  cases slot <;> rfl

/-- Who rejects a delta ends up with the writer's entry. -/
theorem mended_of_rejectedBy (h : p.rejectedBy copy) : p.mended copy own = own := by
  cases p with
  | full | destroy => rfl
  | delta octets =>
    cases copy with
    | none => rfl
    | some e =>
      simp only [rejectedBy, mended] at h ⊢
      split
      · next happly =>
        rw [happly] at h
        cases h
      · rfl

end Payload

/-- The payload that a region pushes to whom it owes the whole value. -/
theorem Region.wholeValue_eq (r : Region) (w : RegionFabric) (key : Bytes) :
    r.wholeValue w key = .whole (r.get? w key) := by
  unfold Region.wholeValue Payload.whole
  cases r.get? w key <;> rfl

/-! ## What a command ships -/

namespace Command

theorem wholePayload_eq (e : Entity) : wholePayload e = .whole e.kept := by
  unfold wholePayload Entity.kept
  split <;> rfl

/-- What is shipped is a delta, or tells of what is kept. -/
theorem payloadOf_eq_whole {existed : Bool} {change : Change} {left : Option Entity} {p : Payload}
    (h : payloadOf existed change left = some p) (hp : p.isDelta = false) :
    p = .whole (left.bind Entity.kept) := by
  cases left with
  | none =>
    simp only [payloadOf] at h
    split at h
    · exact (Option.some.inj h).symm
    · cases h
  | some e =>
    simp only [payloadOf] at h
    split at h
    · cases h
    rw [Option.bind_some, ← wholePayload_eq]
    cases change with
    | none => cases h
    | full => exact (Option.some.inj h).symm
    | delta d =>
      obtain rfl := Option.some.inj h
      split at hp
      · cases hp
      · next hwhole => rw [if_neg hwhole]

end Command

/-- **A payload that is no delta tells of what the command left.** -/
theorem Entries.run_ships_whole {entries entries' : Entries} {key : Bytes} {p : Payload}
    (htidy : entries.Tidy) {c : Command} {answer : Answer}
    (h : entries.run key c = (.ok (answer, some p), entries')) (hp : p.isDelta = false) :
    p = .whole (entries'.get? key) := by
  cases hmutate : c.mutate (entries.get? key) with
  | error why =>
    rw [htidy.run_refused hmutate] at h
    cases h
  | ok result =>
    obtain ⟨answer', change, left⟩ := result
    obtain ⟨-, hrun⟩ := htidy.run_ok hmutate
    rw [hrun] at h
    obtain ⟨hresult, rfl⟩ := Prod.mk.inj h
    have hpayload := (Prod.mk.inj (Except.ok.inj hresult)).2
    rw [OrdMap.get?_set, if_pos rfl]
    exact Command.payloadOf_eq_whole hpayload hp

/-! ## What a payload makes of a copy -/

/-- What is read from a snapshot has nothing staged. -/
theorem Entity.staged_of_ofSnapshot {octets : Bytes} {e : Entity}
    (h : Entity.ofSnapshot octets = .ok e) : e.staged = none := by
  obtain ⟨expiration, rest, -, h⟩ := Reader.exists_of_parse_bind h
  obtain ⟨tag, rest, -, h⟩ := Reader.exists_of_parse_bind h
  obtain ⟨kind, rest, -, h⟩ := Reader.exists_of_parse_bind h
  obtain ⟨content, rest, -, h⟩ := Reader.exists_of_parse_bind h
  cases h
  rfl

/-- A delta does not touch what is staged. -/
theorem Entity.staged_of_applyBytes {octets : Bytes} {e e' : Entity}
    {result : Except DeltaError Unit} (h : e.applyBytes octets = (result, e')) :
    e'.staged = e.staged := by
  cases hread : Delta.ofBytes octets with
  | error fault =>
    rw [Entity.applyBytes, hread] at h
    cases h
    rfl
  | ok delta =>
    rw [Entity.applyBytes_eq hread] at h
    cases h
    cases delta <;> rfl

namespace Entries

variable {copies : Entries} {key : Bytes} {p : Payload} {own : Option Entity}

/-- No payload touches another key. -/
theorem get?_applyPayload_of_ne (copies : Entries) (p : Payload) {key k : Bytes} (h : k ≠ key) :
    (copies.applyPayload key p).2.get? k = copies.get? k := by
  cases p with
  | full snapshot =>
    rw [applyPayload]
    cases Entity.ofSnapshot snapshot with
    | error fault => rfl
    | ok e => exact get?_keep_of_ne copies e h
  | destroy => exact OrdMap.get?_erase_of_ne _ h
  | delta octets =>
    cases hslot : copies.get? key with
    | none => simp only [applyPayload, hslot]
    | some e =>
      rw [applyPayload_delta hslot]
      split
      · exact get?_keep_of_ne copies _ h
      · rfl
      · rfl

/-- Every payload leaves a copy tidy. -/
theorem Tidy.applyPayload (h : copies.Tidy) (key : Bytes) (p : Payload) :
    (copies.applyPayload key p).2.Tidy := by
  cases p with
  | full snapshot =>
    rw [Entries.applyPayload]
    cases hread : Entity.ofSnapshot snapshot with
    | error fault => exact h
    | ok e => exact h.keep (Entity.staged_of_ofSnapshot hread)
  | destroy => exact h.erase
  | delta octets =>
    cases hslot : copies.get? key with
    | none =>
      simp only [Entries.applyPayload, hslot]
      exact h
    | some e =>
      rw [applyPayload_delta hslot]
      split
      · next happly =>
        exact h.keep ((Entity.staged_of_applyBytes happly).trans (h key e hslot).2)
      · exact h
      · exact h

/-- **What a payload makes of a copy that it does not fail at**: it is applied and leaves the entry
that there is to be, or it is rejected, and the copy stays as it is. -/
theorem applyPayload_mends (hwhole : p.isDelta = false → p = .whole own)
    (hown : ∀ e, own = some e → e.isEmpty = false ∧ e.staged = none)
    (hshort : p.octets.length < 2147483648)
    (hok : ∀ why, (copies.applyPayload key p).1 ≠ .error why) :
    (p.rejectedBy (copies.get? key) = true
        ∧ ∃ why, copies.applyPayload key p = (.ok (.needsFull why), copies))
      ∨ p.rejectedBy (copies.get? key) = false ∧ (copies.applyPayload key p).1 = .ok .applied
        ∧ (copies.applyPayload key p).2.get? key = p.mended (copies.get? key) own := by
  cases p with
  | destroy =>
    obtain rfl : own = none := by
      cases own with
      | none => rfl
      | some e => cases hwhole rfl
    exact .inr ⟨rfl, rfl, OrdMap.get?_erase_self _ _⟩
  | full snapshot =>
    obtain ⟨e, rfl, rfl⟩ : ∃ e, own = some e ∧ snapshot = e.snapshot := by
      cases own with
      | none => cases hwhole rfl
      | some e => exact ⟨e, rfl, by cases hwhole rfl; rfl⟩
    obtain ⟨hempty, hstaged⟩ := hown e rfl
    have hsame : e.unstage = e := by
      obtain ⟨content, expiration, staged⟩ := e
      cases hstaged
      rfl
    have happly : copies.applyPayload key (.full e.snapshot)
        = (.ok .applied, copies.keep key e) := by
      rw [applyPayload, Entity.ofSnapshot_snapshot (Entity.fits_of_short hshort), hsame]
    rw [happly]
    refine .inr ⟨rfl, rfl, ?_⟩
    rw [get?_keep_self, Entity.kept, if_neg (by rw [hempty]; exact Bool.false_ne_true)]
    rfl
  | delta octets =>
    cases hslot : copies.get? key with
    | none =>
      simp only [applyPayload, hslot]
      exact .inl ⟨rfl, _, rfl⟩
    | some e =>
      rw [applyPayload_delta hslot] at hok ⊢
      split at hok
      · next e' happly =>
        refine .inr ⟨by rw [Payload.rejectedBy, happly]; rfl, rfl, ?_⟩
        rw [get?_keep_self, Payload.mended]
        simp only [happly]
      · next happly => exact .inl ⟨by rw [Payload.rejectedBy, happly]; rfl, _, rfl⟩
      · exact absurd rfl (hok _)

end Entries

namespace RegionState

variable {s : RegionState} {u : Update} {own : Option Entity}

/-- Whether an update is new or not, its event is recorded. -/
theorem tracker_applyUpdate (s : RegionState) (u : Update) :
    (s.applyUpdate u).2.tracker = (s.tracker.record u.event).2 := by
  rw [applyUpdate]
  rcases s.tracker.record u.event with ⟨_ | _, tracker⟩ <;> rfl

/-- No update touches another key. -/
theorem get?_applyUpdate_of_ne (s : RegionState) {k : Bytes} (h : k ≠ u.key) :
    (s.applyUpdate u).2.entries.get? k = s.entries.get? k := by
  rw [applyUpdate]
  rcases s.tracker.record u.event with ⟨_ | _, tracker⟩
  · rfl
  · exact Entries.get?_applyPayload_of_ne s.entries u.payload h

/-- Every update leaves a copy tidy. -/
theorem tidy_applyUpdate (h : s.entries.Tidy) (u : Update) : (s.applyUpdate u).2.entries.Tidy := by
  rw [applyUpdate]
  rcases s.tracker.record u.event with ⟨_ | _, tracker⟩
  · exact h
  · exact h.applyPayload u.key u.payload

/-- **What a new update makes of a copy that it does not fail at.** The copy has the entry that
there is to be, or it asks for the whole value and keeps its entries. -/
theorem applyUpdate_mends (hunseen : s.tracker.Below u.event.thread u.event.sequence)
    (hwhole : u.payload.isDelta = false → u.payload = .whole own)
    (hown : ∀ e, own = some e → e.isEmpty = false ∧ e.staged = none)
    (hshort : u.payload.octets.length < 2147483648)
    (hok : ∀ why, (s.applyUpdate u).1 ≠ .error why) :
    (s.lacks? u).isSome = u.payload.rejectedBy (s.entries.get? u.key)
      ∧ (s.applyUpdate u).2.entries.get? u.key
        = if u.payload.rejectedBy (s.entries.get? u.key) then s.entries.get? u.key
          else u.payload.mended (s.entries.get? u.key) own := by
  rw [lacks?]
  rw [applyUpdate_of_unseen hunseen.unseen] at hok ⊢
  rcases Entries.applyPayload_mends hwhole hown hshort hok with
    ⟨hrejected, why, happly⟩ | ⟨htaken, happlied, hentry⟩
  · rw [happly, hrejected]
    exact ⟨rfl, rfl⟩
  · rw [happlied, htaken]
    exact ⟨rfl, hentry⟩

end RegionState

end DataGrid
