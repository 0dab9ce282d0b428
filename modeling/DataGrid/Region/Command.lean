import DataGrid.Region.State
import DataGrid.Store.Commit

/-!
# Commands — writes to one member's copy

A command changes the entity under a key, or makes one, or removes it, and says what the other
members have to be told: nothing if nothing changed for them, the whole value if they have no copy
or the value was replaced, the delta otherwise, and that the key is gone if it is. A command for
entities of one kind is refused where the key holds another kind.
-/

namespace DataGrid

/-- A write to the entity under a key. -/
inductive Command where
  | sadd (members : List Bytes)
  | srem (members : List Bytes)
  /-- Removes `count` members of a set. The chosen ones are the ones to go if some stay. -/
  | spop (count : Nat) (chosen : List Bytes)
  | set (octets : Bytes)
  | append (octets : Bytes)
  | zadd (pairs : List (Bytes × Binary64))
  | zrem (members : List Bytes)
  /-- Sets the expiration, or removes the key if the time has passed. -/
  | expireAt (time now : Int64)
  | persist
  | delete
  deriving DecidableEq, Repr

/-- What a command answers. -/
inductive Answer where
  | done
  | count (n : Nat)
  | flag (b : Bool)
  | members (list : List Bytes)
  deriving DecidableEq, Repr

/-- What a command changed in the entity that it leaves. -/
inductive Change where
  | none
  | delta (d : Delta)
  /-- The value was replaced as a whole. -/
  | full
  deriving DecidableEq, Repr

/-- A command met an entity of another kind. -/
structure WrongKind where
  expected : EntityKind
  actual : EntityKind
  deriving DecidableEq, Repr

namespace WrongKind

/-- What the refusal says about a key. -/
def message (w : WrongKind) (key : Bytes) : String :=
  s!"WRONGTYPE {Text.lossy key} holds a {w.actual.name}, not a {w.expected.name}"

end WrongKind

/-- Why a command was not carried out. -/
inductive CommandError where
  | wrongKind (key : Bytes) (why : WrongKind)
  /-- The entity that the command left could not be committed. -/
  | commit (e : DeltaError)
  deriving DecidableEq, Repr

namespace CommandError

/-- The error's name. -/
def name : CommandError → String
  | .wrongKind .. => "WrongType"
  | .commit e => e.name

/-- What the error says. -/
def message : CommandError → String
  | .wrongKind key why => why.message key
  | .commit e => e.message

end CommandError

namespace Command

/-- The number of members that a delta touched, and the change that it makes. -/
def counted : Option Delta → Answer × Change
  | some d => (.count d.count, .delta d)
  | none => (.count 0, .none)

/-- What is left of an entity when its content changes. -/
def withContent (slot : Option Entity) (content : Content) : Entity :=
  match slot with
  | some e => { e with content }
  | none => { content }

/-- What a command on a set does to it. -/
def onSet (slot : Option Entity) (f : SetValue → SetValue × Answer × Change) :
    Except WrongKind (Answer × Change × Option Entity) :=
  match (slot.map (·.content)).getD (.set .empty) with
  | .set s =>
    let (s, answer, change) := f s
    .ok (answer, change, some (withContent slot (.set s)))
  | content => .error ⟨.set, content.kind⟩

/-- What a command on a string does to it. -/
def onString (slot : Option Entity) (f : StringValue → StringValue × Answer × Change) :
    Except WrongKind (Answer × Change × Option Entity) :=
  match (slot.map (·.content)).getD (.string {}) with
  | .string s =>
    let (s, answer, change) := f s
    .ok (answer, change, some (withContent slot (.string s)))
  | content => .error ⟨.string, content.kind⟩

/-- What a command on a sorted set does to it. -/
def onSortedSet (slot : Option Entity) (f : ScoreTable → ScoreTable × Answer × Change) :
    Except WrongKind (Answer × Change × Option Entity) :=
  match (slot.map (·.content)).getD (.sortedSet .empty) with
  | .sortedSet z =>
    let (z, answer, change) := f z
    .ok (answer, change, some (withContent slot (.sortedSet z)))
  | content => .error ⟨.sortedSet, content.kind⟩

/-- What a command does to the entity under a key, if there is one. -/
def mutate (c : Command) (slot : Option Entity) :
    Except WrongKind (Answer × Change × Option Entity) :=
  match c with
  | .sadd members =>
    onSet slot fun s =>
      let (s, delta) := SetValue.add s members
      (s, counted delta)
  | .srem members =>
    if slot.isNone then .ok (.count 0, .none, none)
    else onSet slot fun s =>
      let (s, delta) := SetValue.remove s members
      (s, counted delta)
  | .spop count chosen =>
    if slot.isNone then .ok (.members [], .none, none)
    else onSet slot fun s =>
      let (s, popped, delta) := SetValue.pop s count chosen
      (s, .members popped, (delta.map .delta).getD .none)
  | .set octets =>
    match slot with
    | some { content := .string s, expiration, staged } =>
      .ok (.done, .full, some { content := .string (s.replace octets), expiration, staged })
    | _ => .ok (.done, .full, some { content := .string { octets } })
  | .append octets =>
    onString slot fun s =>
      let (s, length, delta) := s.append octets
      (s, .count length, .delta delta)
  | .zadd pairs =>
    onSortedSet slot fun z =>
      let (z, delta) := ScoreTable.add z pairs
      (z, counted delta)
  | .zrem members =>
    if slot.isNone then .ok (.count 0, .none, none)
    else onSortedSet slot fun z =>
      let (z, delta) := ScoreTable.remove z members
      (z, counted delta)
  | .expireAt time now =>
    match slot with
    | none => .ok (.flag false, .none, none)
    | some e =>
      match e.expireOrRemove time now with
      | .remove => .ok (.flag true, .none, none)
      | .commit e delta => .ok (.flag true, .delta delta, some e)
  | .persist =>
    match slot with
    | none => .ok (.flag false, .none, none)
    | some e =>
      match e.persist with
      | (e, some delta) => .ok (.flag true, .delta delta, some e)
      | (e, none) => .ok (.flag false, .none, some e)
  | .delete => .ok (.flag slot.isSome, .none, none)

/-- A store that makes of one commit the payload that tells of it. -/
def collector : Store (Option Payload) where
  put _ _ e :=
    match e.capture with
    | (.ok delta, e) => (.ok (), e, some (.delta delta.encode))
    | (.error _, e) => (.ok (), e, some (.full e.snapshot))
  remove _ _ := (.ok (), some .destroy)

/-- Commits an entity that a command left. Answers it, and the payload that tells of it. -/
def commit (existed : Bool) (key : Bytes) (e : Entity) :
    Change → Except DeltaError Unit × Entity × Option Payload
  | .none => (.ok (), e, none)
  | .full => collector.commitFull none key e
  | .delta d =>
    if existed then collector.commitDelta none key e d
    else collector.commitFull none key e

end Command

namespace Entries

/-- The entries when a command has left something, or nothing, under a key, and the payload that
tells of it. -/
def store (entries : Entries) (key : Bytes) (existed : Bool) (change : Change) :
    Option Entity → Except DeltaError (Option Payload) × Entries
  | none => (.ok (if existed then some .destroy else none), entries.erase key)
  | some e =>
    if !existed && e.isEmpty then (.ok none, entries.erase key)
    else
      let (result, e, payload) := Command.commit existed key e change
      (result.map fun _ => payload, entries.keep key e)

/-- Runs a command on the entity under a key. Answers what the command answers, and the payload
that tells the other members of it. -/
def run (entries : Entries) (key : Bytes) (c : Command) :
    Except CommandError (Answer × Option Payload) × Entries :=
  let slot := entries.get? key
  match c.mutate slot with
  | .error why => (.error (.wrongKind key why), (slot.map (entries.keep key)).getD entries)
  | .ok (answer, change, left) =>
    match entries.store key slot.isSome change left with
    | (.ok payload, entries) => (.ok (answer, payload), entries)
    | (.error e, entries) => (.error (.commit e), entries)

end Entries

end DataGrid
