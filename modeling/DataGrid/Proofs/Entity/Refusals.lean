import DataGrid.Proofs.Entity.Grammar

/-!
# Refusals — deltas that are not applied

Octets are applied to an entity in two steps, and each can fail: they may spell no delta, and the
delta that they spell may not suit the entity. Which deltas do not suit is a matter of kinds, but
for appends to a string, which must be the next one or the last one (`Content.Refuses`). A failure
of either step leaves the entity as it was, with what is staged on it, and the name of the error
says which step it was (`Entity.applyBytes_fails`).
-/

namespace DataGrid

/-! ## Definitions -/

/-- Entities of which kind take deltas of a kind. A new expiration is for all. -/
def DeltaKind.Suits : DeltaKind → EntityKind → Prop
  | .adds, kind => kind = .set
  | .rems, kind => kind ≠ .string
  | .append, kind => kind = .string
  | .timestamp, _ => True
  | .zadds, kind => kind = .sortedSet

/-- **Which deltas a content refuses, and why.** -/
inductive Content.Refuses : Content → Delta → Refusal → Prop where
  | unsuitable {content : Content} {delta : Delta} (h : ¬delta.kind.Suits content.kind) :
    Refuses content delta (.unsuitable content.kind delta.kind)
  /-- The last append of the string is neither this one nor the one before it. -/
  | outOfSequence {s : StringValue} {sequence : Int32} {octets : Bytes}
    (hlast : s.sequence ≠ sequence) (hbefore : s.sequence ≠ sequence - 1) :
    Refuses (.string s) (.append sequence octets) (.outOfSequence sequence (s.sequence + 1))

/-- Whether octets begin with a spelling of a delta. -/
def Delta.Begins (delta : Delta) (bytes : Bytes) : Prop :=
  ∃ front rest, bytes = front ++ rest ∧ Delta.Form front delta

/-- **Why octets are not applied to an entity.** -/
inductive Entity.Rejects (e : Entity) (bytes : Bytes) : DeltaError → Prop where
  | unreadable {fault : Fault} (h : Delta.ofBytes bytes = .error fault) : e.Rejects bytes (.wire fault)
  | refused {delta : Delta} {why : Refusal} (hspelled : delta.Begins bytes)
    (h : e.content.Refuses delta why) : e.Rejects bytes (.refused why)

/-! ## What octets spell -/

namespace Delta

variable {delta : Delta} {bytes : Bytes}

theorem ofBytes_eq_ok_iff : ofBytes bytes = .ok delta ↔ delta.Begins bytes := by
  constructor
  · intro h
    have hread : read bytes = (.ok delta, (read bytes).2) := Prod.ext h rfl
    obtain ⟨front, heq, hform⟩ := (accepts_read ..).1 hread
    exact ⟨front, _, heq, hform⟩
  · rintro ⟨front, rest, heq, hform⟩
    have hread : read bytes = (.ok delta, rest) := (accepts_read ..).2 ⟨front, heq, hform⟩
    exact congrArg Prod.fst hread

/-- Octets are unreadable just if they begin with no delta. -/
theorem ofBytes_fails_iff :
    (∃ fault, ofBytes bytes = .error fault) ↔ ∀ delta : Delta, ¬delta.Begins bytes := by
  simp only [← ofBytes_eq_ok_iff]
  cases ofBytes bytes <;> simp

end Delta

/-! ## What suits -/

namespace Content

variable {content : Content} {s : StringValue} {delta : Delta} {why : Refusal}

theorem apply_of_not_suits (h : ¬delta.kind.Suits content.kind) :
    content.apply delta = (.error (.unsuitable content.kind delta.kind), content) := by
  cases content <;> cases delta <;> first
    | rfl
    | exact absurd (by simp [DeltaKind.Suits, Delta.kind, kind]) h

theorem applyAppend_fails_iff {sequence : Int32} {octets : Bytes} :
    (applyAppend s sequence octets).1 = .error why
      ↔ s.sequence ≠ sequence ∧ s.sequence ≠ sequence - 1
        ∧ why = .outOfSequence sequence (s.sequence + 1) := by
  have hbefore : s.sequence = sequence - 1 ↔ sequence = s.sequence + 1 := by
    rw [Int32.eq_sub_iff_add_eq, eq_comm]
  rw [applyAppend, Ne, Ne, hbefore, eq_comm (a := s.sequence)]
  by_cases hnext : sequence = s.sequence + 1
  · simp [hnext]
  · by_cases hlast : sequence = s.sequence
    · simp [hlast]
    · simp [hnext, hlast, eq_comm]

/-- A delta of the right kind is refused only if it is an append out of sequence. -/
theorem refuses_iff_of_suits (h : delta.kind.Suits content.kind) :
    content.Refuses delta why ↔ ∃ s sequence octets, content = .string s
      ∧ delta = .append sequence octets ∧ s.sequence ≠ sequence ∧ s.sequence ≠ sequence - 1
      ∧ why = .outOfSequence sequence (s.sequence + 1) := by
  constructor
  · rintro (hnot | ⟨hlast, hbefore⟩)
    · exact absurd h hnot
    · exact ⟨_, _, _, rfl, rfl, hlast, hbefore, rfl⟩
  · rintro ⟨s, sequence, octets, rfl, rfl, hlast, hbefore, rfl⟩
    exact .outOfSequence hlast hbefore

/-- A delta of values is applied unless it is refused, and fails for the reason of the refusal. -/
theorem apply_fails_iff (h : delta.kind ≠ .timestamp) :
    (content.apply delta).1 = .error why ↔ content.Refuses delta why := by
  by_cases hsuits : delta.kind.Suits content.kind
  · rw [refuses_iff_of_suits hsuits]
    cases content with
    | set s =>
      cases delta with
      | adds | rems => simp [apply]
      | append | zadds => cases hsuits
      | timestamp => exact absurd rfl h
    | sortedSet z =>
      cases delta with
      | zadds | rems => simp [apply]
      | adds | append => cases hsuits
      | timestamp => exact absurd rfl h
    | string s =>
      cases delta with
      | append sequence octets =>
        show (applyAppend s sequence octets).1 = .error why ↔ _
        rw [applyAppend_fails_iff]
        constructor
        · exact fun hout => ⟨s, sequence, octets, rfl, rfl, hout⟩
        · rintro ⟨_, _, _, ⟨⟩, ⟨⟩, hout⟩
          exact hout
      | adds | zadds => cases hsuits
      | rems => exact absurd rfl hsuits
      | timestamp => exact absurd rfl h
  · rw [apply_of_not_suits hsuits]
    constructor
    · rintro ⟨⟩
      exact .unsuitable hsuits
    · rintro (_ | _)
      · rfl
      · exact absurd rfl hsuits

end Content

namespace Entity

variable {e e' : Entity} {delta : Delta} {bytes : Bytes} {why : Refusal} {error : DeltaError}

theorem apply_fails_iff : (e.apply delta).1 = .error why ↔ e.content.Refuses delta why := by
  by_cases htime : delta.kind = .timestamp
  · cases delta with
    | timestamp time =>
      have hsuits : (Delta.timestamp time).kind.Suits e.content.kind := trivial
      rw [Content.refuses_iff_of_suits hsuits]
      simp [apply]
    | adds | rems | append | zadds => cases htime
  · rw [apply_eq e htime]
    exact Content.apply_fails_iff htime

/-- **What is rejected fails, and nothing else does.** -/
theorem applyBytes_fails_iff : (e.applyBytes bytes).1 = .error error ↔ e.Rejects bytes error := by
  cases hread : Delta.ofBytes bytes with
  | error fault =>
    have hnone := Delta.ofBytes_fails_iff.1 ⟨fault, hread⟩
    rw [applyBytes, hread]
    constructor
    · rintro ⟨⟩
      exact .unreadable hread
    · rintro (hunreadable | ⟨hspelled, _⟩)
      · rw [Except.error.inj (hread.symm.trans hunreadable)]
      · exact absurd hspelled (hnone _)
  | ok delta =>
    have hrejects : e.Rejects bytes error ↔ ∃ why, (e.apply delta).1 = .error why
        ∧ error = .refused why := by
      constructor
      · rintro (hunreadable | ⟨hspelled, hrefuses⟩)
        · cases hread.symm.trans hunreadable
        · obtain rfl := Except.ok.inj (hread.symm.trans (Delta.ofBytes_eq_ok_iff.2 hspelled))
          exact ⟨_, apply_fails_iff.2 hrefuses, rfl⟩
      · rintro ⟨why, happly, rfl⟩
        exact .refused (Delta.ofBytes_eq_ok_iff.1 hread) (apply_fails_iff.1 happly)
    rw [hrejects, applyBytes_eq hread]
    cases (e.apply delta).1 with
    | ok _ =>
      constructor
      · rintro ⟨⟩
      · rintro ⟨_, ⟨⟩, _⟩
    | error why =>
      constructor
      · rintro ⟨⟩
        exact ⟨why, rfl, rfl⟩
      · rintro ⟨_, ⟨⟩, rfl⟩
        rfl

theorem applyBytes_eq_ok_iff : e.applyBytes bytes = (.ok (), e')
    ↔ ∃ delta : Delta, delta.Begins bytes ∧ e.apply delta = (.ok (), e') := by
  simp only [← Delta.ofBytes_eq_ok_iff]
  cases hread : Delta.ofBytes bytes with
  | error fault => simp [applyBytes, hread]
  | ok delta =>
    rw [applyBytes_eq hread]
    rcases happly : e.apply delta with ⟨_ | _, left⟩
    · constructor
      · rintro ⟨⟩
      · rintro ⟨_, ⟨⟩, hok⟩
        cases happly.symm.trans hok
    · constructor
      · rintro ⟨⟩
        exact ⟨delta, rfl, happly⟩
      · rintro ⟨_, ⟨⟩, hok⟩
        cases happly.symm.trans hok
        rfl

/-- The name of the error tells the two ways to be rejected apart. -/
theorem Rejects.name_eq_iff (h : e.Rejects bytes error) :
    error.name = "InvalidDelta" ↔ ∃ delta : Delta, delta.Begins bytes := by
  cases h with
  | @unreadable fault h =>
    have hnone := Delta.ofBytes_fails_iff.1 ⟨fault, h⟩
    have hname : (DeltaError.wire fault).name ≠ "InvalidDelta" := by
      cases fault <;> simp [DeltaError.name, Fault.name]
    exact ⟨fun heq => absurd heq hname, fun ⟨delta, hspelled⟩ => absurd hspelled (hnone delta)⟩
  | refused hspelled => exact ⟨fun _ => ⟨_, hspelled⟩, fun _ => rfl⟩

/-- **When octets are not applied, and that nothing has happened then.** They are rejected just if
they begin with no delta, or with one that the content refuses. The error has the name of an
unsuitable delta just in the second case. The entity is as it was: its content, its expiration and
what is staged. In all other cases the delta that they begin with is applied. -/
theorem applyBytes_fails (e : Entity) (bytes : Bytes) :
    (∀ error, (e.applyBytes bytes).1 = .error error ↔ e.Rejects bytes error)
    ∧ ((∃ fault, Delta.ofBytes bytes = .error fault) ↔ ∀ delta : Delta, ¬delta.Begins bytes)
    ∧ (∀ error, (e.applyBytes bytes).1 = .error error →
        (error.name = "InvalidDelta" ↔ ∃ delta : Delta, delta.Begins bytes)
        ∧ (e.applyBytes bytes).2 = e)
    ∧ ∀ e', e.applyBytes bytes = (.ok (), e')
        ↔ ∃ delta : Delta, delta.Begins bytes ∧ e.apply delta = (.ok (), e') :=
  ⟨fun _ => applyBytes_fails_iff, Delta.ofBytes_fails_iff,
    fun _ h => ⟨(applyBytes_fails_iff.1 h).name_eq_iff, applyBytes_of_error (Prod.ext h rfl)⟩,
    fun _ => applyBytes_eq_ok_iff⟩

/-- An append that leaves a gap over the wrap of the numbers, and a list that is cut short in its
second member, on entities with something staged. -/
theorem applyBytes_fails_gap :
    let staged : Option Delta := some (.timestamp 9)
    let text : Entity := {
      content := .string { octets := [97], sequence := -2147483648 }, expiration := 5, staged }
    let set : Entity := { content := .set (.ofList [[97]]), expiration := 5, staged }
    let gap := (Delta.append (-2147483646) [98]).encode
    let cut : Bytes := [1, 0, 0, 0, 2, 1, 97, 2, 98]
    (text.applyBytes gap).1 = .error (.refused (.outOfSequence (-2147483646) (-2147483647)))
      ∧ (text.applyBytes gap).2 = text
      ∧ set.Rejects cut (.wire (.truncated 2 1)) ∧ (set.applyBytes cut).2 = set
      ∧ ∀ delta : Delta, ¬delta.Begins cut := by
  intro staged text set gap cut
  obtain ⟨hgap, -, hleft, -⟩ := applyBytes_fails text gap
  obtain ⟨hcut, hunreadable, hleft', -⟩ := applyBytes_fails set cut
  have hspelled : Delta.Begins (.append (-2147483646) [98]) gap :=
    Delta.ofBytes_eq_ok_iff.1 (Delta.ofBytes_encode (show 1 < 2147483648 by decide))
  have hrefuses : text.content.Refuses (.append (-2147483646) [98])
      (.outOfSequence (-2147483646) (-2147483647)) := .outOfSequence (by decide) (by decide)
  have herror := (hgap _).2 (.refused hspelled hrefuses)
  have herror' : (set.applyBytes cut).1 = .error (.wire (.truncated 2 1)) := by rfl
  exact ⟨herror, (hleft _ herror).2, (hcut _).1 herror', (hleft' _ herror').2,
    hunreadable.1 ⟨.truncated 2 1, by rfl⟩⟩

end Entity

end DataGrid
