import DataGrid.Wire.Utf8

/-!
# Fault — what can be wrong with a message's octets

A reader fails with one of these causes, and so does the little writing that can fail. A fault
ends the message it was found in, never the connection the message came by.
-/

namespace DataGrid

/-- How a message breaks the rules of its own layout. -/
inductive Malformation where
  /-- A text of this many octets does not fit a two-octet length. -/
  | textTooLong (size : Nat)
  /-- An array that must be there is null. -/
  | nullArray
  /-- A member's port is no port. -/
  | memberPort (port : Int32)
  /-- Octets follow a member identity that are no uuid and weight. -/
  | memberTrailing (count : Nat)
  /-- A reply's payload is no reply object. -/
  | replyPayload
  /-- A reply's status promises an exception and its payload holds a value. -/
  | exceptionExpected
  /-- An update's payload has a tag that means nothing. -/
  | updateTag (tag : UInt8)
  /-- Octets follow a message that was read to its end. -/
  | trailing (count : Nat) (kind : UInt16)
  deriving DecidableEq, Repr

namespace Malformation

/-- What the malformation says. -/
def message : Malformation → String
  | .textTooLong size => s!"string of {size} bytes is too long"
  | .nullArray => "unexpected null byte array"
  | .memberPort port => s!"invalid member port {port.toInt}"
  | .memberTrailing count => s!"{count} trailing bytes after member identity"
  | .replyPayload => "unreadable reply payload"
  | .exceptionExpected => "exception flag set on a non-exception payload"
  | .updateTag tag => s!"unknown update payload tag {tag.toNat}"
  | .trailing count kind => s!"{count} trailing bytes after message kind {kind.toNat}"

end Malformation

/-- Why octets could not be read, or a value could not be written. -/
inductive Fault where
  /-- The octets end too early. -/
  | truncated (needed remaining : Nat)
  | malformed (what : Malformation)
  /-- A length or count is negative, or is no length at all. -/
  | arrayLength (length : Int32)
  | unknownKind (kind : UInt16)
  | unknownVersion (ordinal : UInt16)
  /-- A text is no UTF-8. -/
  | notText (why : Utf8.Fault)
  /-- A compact number's width tag means nothing. -/
  | widthTag (tag : UInt8)
  /-- A delta's tag means nothing. -/
  | deltaTag (tag : UInt8)
  /-- An entity's tag means nothing. -/
  | entityTag (tag : UInt8)
  deriving DecidableEq, Repr

namespace Fault

/-- The fault's name. -/
def name : Fault → String
  | .truncated .. => "Truncated"
  | .malformed _ => "MalformedMessage"
  | .arrayLength _ => "InvalidArrayLength"
  | .unknownKind _ => "UnknownMessageKind"
  | .unknownVersion _ => "UnknownVersion"
  | .notText _ => "Utf8"
  | .widthTag _ => "InvalidWidthTag"
  | .deltaTag _ => "UnknownDeltaType"
  | .entityTag _ => "UnknownEntityKind"

/-- What the fault says. -/
def message : Fault → String
  | .truncated needed remaining =>
    s!"Truncated input: needed {needed} bytes, {remaining} remaining"
  | .malformed what => "Malformed message: " ++ what.message
  | .arrayLength length => s!"Invalid array length: {length.toInt}"
  | .unknownKind kind => s!"Unknown message kind: {kind.toNat}"
  | .unknownVersion ordinal => s!"Unknown wire version ordinal: {ordinal.toNat}"
  | .notText why => "Invalid UTF-8 string: " ++ why.message
  | .widthTag tag => s!"Invalid compact width tag: {tag.toNat}"
  | .deltaTag tag => s!"Unknown delta type: {tag.toNat}"
  | .entityTag tag => s!"Unknown entity kind: {tag.toNat}"

end Fault

end DataGrid
