import DataGrid.Entity.ScoreTable
import DataGrid.Entity.SetValue
import DataGrid.Entity.StringValue

/-!
# Entities — the values of a region

An entity is a set, a string or a sorted set of octets. Each has an expiration, and during a
commit it has a staged delta. A delta is applied only if it suits the value; one that does not is
refused and changes nothing, and its sender should ship the whole value instead. A new expiration
suits every entity.
-/

namespace DataGrid

/-- The kinds of entity. -/
inductive EntityKind where
  | set
  | string
  | sortedSet
  deriving DecidableEq, Repr

namespace EntityKind

/-- The tag that names the kind. -/
def tag : EntityKind → UInt8
  | .set => 0
  | .string => 1
  | .sortedSet => 2

/-- The kind that a tag names. -/
def ofTag (tag : UInt8) : Except Fault EntityKind :=
  if tag = 0 then .ok .set
  else if tag = 1 then .ok .string
  else if tag = 2 then .ok .sortedSet
  else .error (.entityTag tag)

/-- The kind's name. -/
def name : EntityKind → String
  | .set => "set"
  | .string => "string"
  | .sortedSet => "sorted set"

end EntityKind

/-- Why a delta does not suit an entity. -/
inductive Refusal where
  /-- Entities of this kind do not take deltas of that kind. -/
  | unsuitable (entity : EntityKind) (delta : DeltaKind)
  /-- An append is not the next one. -/
  | outOfSequence (sequence expected : Int32)
  deriving DecidableEq, Repr

namespace Refusal

/-- What the refusal says. -/
def message : Refusal → String
  | .unsuitable entity delta => s!"Invalid {delta.name} delta for {entity.name}"
  | .outOfSequence sequence expected =>
    s!"Invalid {DeltaKind.append.name} (sequence {sequence.toInt} but expected {expected.toInt}) "
      ++ s!"delta for {EntityKind.string.name}"

end Refusal

/-- Why an operation on entities failed. -/
inductive DeltaError where
  | refused (why : Refusal)
  /-- There was no staged delta to capture. -/
  | nothingStaged
  /-- A store failed for reasons of its own. -/
  | store (why : String)
  | wire (fault : Fault)
  deriving DecidableEq, Repr

namespace DeltaError

/-- The error's name. -/
def name : DeltaError → String
  | .refused _ => "InvalidDelta"
  | .nothingStaged => "NoPendingDelta"
  | .store _ => "Store"
  | .wire fault => fault.name

/-- What the error says. -/
def message : DeltaError → String
  | .refused why => why.message
  | .nothingStaged => "No pending delta to capture"
  | .store why => "Store error: " ++ why
  | .wire fault => fault.message

end DeltaError

/-- What an entity holds. -/
inductive Content where
  | set (members : SetValue)
  | string (value : StringValue)
  | sortedSet (scores : ScoreTable)
  deriving DecidableEq

namespace Content

def kind : Content → EntityKind
  | .set _ => .set
  | .string _ => .string
  | .sortedSet _ => .sortedSet

/-- Whether there is nothing to store. A string is stored even when it is empty. -/
def isEmpty : Content → Bool
  | .set members => members.isEmpty
  | .string _ => false
  | .sortedSet scores => scores.isEmpty

/-- Whether two contents are equal, with scores compared as numbers. -/
def agrees : Content → Content → Bool
  | .sortedSet scores, .sortedSet scores' => scores.agrees scores'
  | a, b => a == b

/-- Takes an append: the next one is added, and the last one is known already. -/
def applyAppend (s : StringValue) (sequence : Int32) (octets : Bytes) :
    Except Refusal Unit × StringValue :=
  let expected := s.sequence + 1
  if sequence = expected then (.ok (), { octets := s.octets ++ octets, sequence })
  else if sequence = s.sequence then (.ok (), s)
  else (.error (.outOfSequence sequence expected), s)

/-- Applies a delta that suits the content. -/
def apply (content : Content) (delta : Delta) : Except Refusal Unit × Content :=
  match content, delta with
  | .set s, .adds members => (.ok (), .set (s.insertAll members))
  | .set s, .rems members => (.ok (), .set (s.eraseAll members))
  | .string s, .append sequence octets =>
    let (result, s) := applyAppend s sequence octets
    (result, .string s)
  | .sortedSet z, .zadds pairs =>
    (.ok (), .sortedSet (pairs.foldl (fun z pair => z.insert pair.1 pair.2) z))
  | .sortedSet z, .rems members => (.ok (), .sortedSet (members.foldl OrdMap.erase z))
  | content, delta => (.error (.unsuitable content.kind delta.kind), content)

/-- An append that is refused leaves the string as it was. -/
theorem applyAppend_of_error {s s' : StringValue} {sequence : Int32} {octets : Bytes}
    {why : Refusal} (h : applyAppend s sequence octets = (.error why, s')) : s' = s := by
  by_cases hnext : sequence = s.sequence + 1
  · rw [applyAppend, if_pos hnext] at h
    cases h
  · rw [applyAppend, if_neg hnext] at h
    split at h <;> cases h
    rfl

/-- A delta that is refused leaves the content as it was. -/
theorem apply_of_error {content content' : Content} {delta : Delta} {why : Refusal}
    (h : content.apply delta = (.error why, content')) : content' = content := by
  unfold apply at h
  split at h
  · cases h
  · cases h
  · next s sequence octets =>
    cases happend : applyAppend s sequence octets with
    | mk result s' =>
      rw [happend] at h
      cases h
      exact congrArg Content.string (applyAppend_of_error happend)
  · cases h
  · cases h
  · cases h
    rfl

end Content

/-- A value of a region. -/
structure Entity where
  content : Content
  /-- Minus one if the entity never expires. -/
  expiration : Int64 := -1
  /-- The delta staged for the commit in progress. -/
  staged : Option Delta := none
  deriving DecidableEq

/-- What an expiration at a given time asks for. -/
inductive ExpireAction where
  /-- The time has passed; the entry must go. -/
  | remove
  | commit (entity : Entity) (delta : Delta)

namespace Entity

/-- The expiration of an entity that never expires. -/
def never : Int64 := -1

/-- The time to live of an entity that never expires. -/
def unlimited : Int64 := -1

/-- The time to live of an entity that has expired. -/
def expired : Int64 := -2

def kind (e : Entity) : EntityKind := e.content.kind

/-- Whether there is nothing to store. -/
def isEmpty (e : Entity) : Bool := e.content.isEmpty

/-- Whether two entities are equal, with scores compared as numbers. -/
def agrees (a b : Entity) : Bool :=
  a.content.agrees b.content && a.expiration == b.expiration
    && match a.staged, b.staged with
      | none, none => true
      | some d, some d' => d.agrees d'
      | _, _ => false

/-! ## Staging -/

/-- Stages a delta. -/
def stage (e : Entity) (delta : Delta) : Entity := { e with staged := some delta }

/-- Drops what is staged. -/
def unstage (e : Entity) : Entity := { e with staged := none }

/-- Takes the staged delta. -/
def capture (e : Entity) : Except DeltaError Delta × Entity :=
  match e.staged with
  | some delta => (.ok delta, e.unstage)
  | none => (.error .nothingStaged, e)

/-! ## Expiration -/

/-- Sets the expiration. -/
def expireAt (e : Entity) (time : Int64) : Entity × Delta :=
  ({ e with expiration := time }, .timestamp time)

/-- Sets the expiration, or asks for the entry to go if the time has passed. -/
def expireOrRemove (e : Entity) (time now : Int64) : ExpireAction :=
  if time ≤ now then .remove
  else
    let (e, delta) := e.expireAt time
    .commit e delta

/-- Clears the expiration, if there is one. -/
def persist (e : Entity) : Entity × Option Delta :=
  if e.expiration = never then (e, none)
  else
    let (e, delta) := e.expireAt never
    (e, some delta)

/-- The milliseconds that are left. -/
def timeToLive (e : Entity) (now : Int64) : Int64 :=
  if e.expiration = never then unlimited
  else if e.expiration ≤ now then expired
  else e.expiration - now

/-- Whether the expiration has passed. -/
def hasExpiredAt (e : Entity) (now : Int64) : Bool :=
  e.expiration ≠ never && e.expiration ≤ now

/-! ## Deltas -/

/-- Applies a delta that suits the entity. -/
def apply (e : Entity) (delta : Delta) : Except Refusal Unit × Entity :=
  match delta with
  | .timestamp time => (.ok (), { e with expiration := time })
  | delta =>
    let (result, content) := e.content.apply delta
    (result, { e with content })

/-- Applies the delta that octets spell, if they spell one. -/
def applyBytes (e : Entity) (bytes : Bytes) : Except DeltaError Unit × Entity :=
  match Delta.ofBytes bytes with
  | .error fault => (.error (.wire fault), e)
  | .ok delta =>
    let (result, e) := e.apply delta
    (result.mapError .refused, e)

variable {e e' : Entity} {delta : Delta} {bytes : Bytes}

/-- A delta of values goes to the content. -/
theorem apply_eq (e : Entity) (h : delta.kind ≠ .timestamp) : e.apply delta
    = ((e.content.apply delta).1, { e with content := (e.content.apply delta).2 }) := by
  cases delta with
  | timestamp time => exact absurd rfl h
  | adds | rems | append | zadds => rfl

theorem applyBytes_eq (h : Delta.ofBytes bytes = .ok delta) :
    e.applyBytes bytes = ((e.apply delta).1.mapError .refused, (e.apply delta).2) := by
  rw [applyBytes, h]

/-- **A delta that is refused leaves the entity as it was.** -/
theorem apply_of_error {why : Refusal} (h : e.apply delta = (.error why, e')) : e' = e := by
  by_cases htime : delta.kind = .timestamp
  · cases delta <;> cases htime
    cases h
  · rw [apply_eq e htime] at h
    obtain ⟨hresult, rfl⟩ := Prod.mk.inj h
    have hleft : (e.content.apply delta).2 = e.content :=
      Content.apply_of_error (Prod.ext hresult rfl)
    rw [hleft]

/-- **Octets that are not applied leave the entity as it was.** -/
theorem applyBytes_of_error {error : DeltaError} (h : e.applyBytes bytes = (.error error, e')) :
    e' = e := by
  cases hread : Delta.ofBytes bytes with
  | error fault =>
    rw [applyBytes, hread] at h
    cases h
    rfl
  | ok delta =>
    rw [applyBytes_eq hread] at h
    obtain ⟨hresult, rfl⟩ := Prod.mk.inj h
    cases happly : e.apply delta with
    | mk result e' =>
      rw [happly] at hresult
      cases result with
      | ok _ => cases hresult
      | error why => exact apply_of_error happly

end Entity

end DataGrid
