import DataGrid.Event.Compact
import DataGrid.Event.IdentityCache
import DataGrid.Event.MembershipId
import DataGrid.Event.Producer

/-!
# Event ids — one name for each mutation of the grid

An event is named by the member that produced it, the producer's thread id, and the producer's
sequence id. That triple alone decides whether two ids name one event; the bucket and the
breadcrumb counter ride along. The member is compared as `MembershipId.same` compares, so an id
that passed through an older version still names the same event, and its hash is the same.

On the wire an id is

    [membership id : octets] [compact pair : octets] [bucket : i32] [breadcrumbs : u8]

and a version older than 1.1 gets the membership id in the older form.
-/

namespace DataGrid

/-- The name of an event. -/
structure EventId where
  membership : Bytes
  thread : Int64
  sequence : Int64
  /-- Minus one if the event belongs to no bucket. -/
  bucket : Int32 := -1
  breadcrumbs : UInt8 := 0
  deriving DecidableEq, Repr

namespace EventId

/-- A new id for a producer under the identity of a connection. The sequence id is reserved only
when the identity is known. -/
def generate (cache : IdentityCache) (connection : Option Connection) (p : Producer) :
    Except EventError EventId × IdentityCache × Producer :=
  match cache.membershipId connection with
  | (.error e, cache) => (.error e, cache, p)
  | (.ok membership, cache) =>
    let (sequence, p') := p.reserve
    (.ok { membership, thread := p.thread, sequence }, cache, p')

/-- The id that many places further on in a range that starts here. It belongs to no bucket. -/
def withOffset (id : EventId) (offset : Int64) : Except EventError EventId :=
  let sequence := id.sequence.toInt + offset.toInt
  if Int64.minValue.toInt ≤ sequence ∧ sequence ≤ Int64.maxValue.toInt then
    .ok { membership := id.membership, thread := id.thread, sequence := Int64.ofInt sequence }
  else .error (.sequenceOverflow id.sequence offset)

/-- The id with one breadcrumb more; the counter wraps. -/
def addBreadcrumb (id : EventId) : EventId :=
  { id with breadcrumbs := id.breadcrumbs + 1 }

/-- The compact thread id and sequence id. -/
def compact (id : EventId) : Bytes := Compact.writePair id.thread id.sequence

/-- The member that produced the event. -/
def member (id : EventId) : Except Fault Member := Member.ofEssentialBytes id.membership

/-! ## Identity -/

/-- Whether two events come from one member and thread. -/
def sameProducer (a b : EventId) : Bool :=
  a.thread == b.thread && MembershipId.same a.membership b.membership

/-- **Whether two ids name one event.** -/
def same (a b : EventId) : Bool :=
  a.thread == b.thread && a.sequence == b.sequence
    && MembershipId.same a.membership b.membership

/-- A number folded to half its width. -/
def foldHash (v : Int64) : Int32 :=
  (v.toUInt64 ^^^ (v.toUInt64 >>> 32)).toUInt32.toInt32

/-- A hash that every process agrees on. -/
def hash (id : EventId) : Int32 :=
  ((31 + MembershipId.hash id.membership) * 31 + foldHash id.sequence) * 31 + foldHash id.thread

/-! ## On the wire -/

/-- The membership id in the form that a version understands. -/
def membershipAt (id : EventId) (version : Version) : Except Fault Bytes :=
  if version.needsLegacyMember then do
    let member ← id.member
    member.essentialBytes .v0_9
  else .ok id.membership

/-- The octets of the id at a version. -/
def encode (id : EventId) (version : Version) : Except Fault Bytes := do
  let membership ← id.membershipAt version
  return Encode.bytes membership ++ Encode.bytes id.compact ++ Encode.i32 id.bucket
    ++ Encode.u8 id.breadcrumbs

/-- Reads an id. Octets of the pair beyond its two numbers are passed over. -/
def read : Reader EventId := do
  let membership ← Reader.bytes
  let pair ← Reader.bytes
  let (thread, sequence) ← Reader.ofExcept (Compact.readPair.parse pair)
  let bucket ← Reader.i32
  let breadcrumbs ← Reader.u8
  return { membership, thread, sequence, bucket, breadcrumbs }

/-! ## Text -/

/-- The short form of an id, which does not look into the membership id. -/
def display (id : EventId) : String :=
  s!"EventID[id={id.membership.length} bytes;threadID={id.thread.toInt};"
    ++ s!"sequenceID={id.sequence.toInt}"
    ++ (if 0 ≤ id.bucket then s!";bucketId={id.bucket.toInt}" else "") ++ "]"

/-- Octets as a list of numbers. -/
def listed (bytes : Bytes) : String :=
  "[" ++ String.intercalate ", " (bytes.map fun byte => toString byte.toNat) ++ "]"

/-- The long form of an id, which names the member, or lists the octets that name none. -/
def describe (id : EventId) : String :=
  let member := match id.member with
    | .ok member => member.display
    | .error _ => listed id.membership
  s!"EventID[{member};threadID={id.thread.toInt};sequenceID={id.sequence.toInt}"
    ++ (if 0 ≤ id.bucket then s!";bucketID={id.bucket.toInt}" else "") ++ "]"

end EventId

end DataGrid
