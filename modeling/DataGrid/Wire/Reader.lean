import DataGrid.Wire.Fault

/-!
# Reader — taking values from the front of octets

A reader hands back what it has not consumed, whether it succeeds or fails: a reader that fails
inside a value has consumed the parts of the value it had already read. Every reader of the wire
is built from one step, `Reader.take`, which takes a given count of octets or nothing.

An array's length is one octet up to 252, and otherwise one of three marks: null, a two-octet
length, a four-octet length.
-/

namespace DataGrid

/-- A reader of values of a type: what it read or the fault it met, and the octets it left. -/
def Reader (α : Type) : Type := Bytes → Except Fault α × Bytes

namespace Reader

variable {α β : Type}

/-- What the reader makes of these octets. -/
def run (reader : Reader α) (bytes : Bytes) : Except Fault α × Bytes := reader bytes

/-- Reads nothing and succeeds. -/
protected def pure (a : α) : Reader α := fun bytes => (.ok a, bytes)

/-- Reads on from where the first reader stopped, if it succeeded. -/
protected def bind (reader : Reader α) (next : α → Reader β) : Reader β := fun bytes =>
  match reader bytes with
  | (.ok a, rest) => next a rest
  | (.error fault, rest) => (.error fault, rest)

/-- Reads nothing and fails. -/
def fail (fault : Fault) : Reader α := fun bytes => (.error fault, bytes)

instance : Monad Reader where
  pure := Reader.pure
  bind := Reader.bind

/-- The result of a computation that reads nothing. -/
def ofExcept : Except Fault α → Reader α
  | .ok a => Reader.pure a
  | .error fault => fail fault

/-- What the reader makes of octets that hold a value on their own; what it leaves is dropped. -/
def parse (reader : Reader α) (bytes : Bytes) : Except Fault α := (reader bytes).1

/-! ## Octets and numbers -/

/-- The next `count` octets. -/
def take (count : Nat) : Reader Bytes := fun bytes =>
  let front := bytes.take count
  if front.length < count then (.error (.truncated count bytes.length), bytes)
  else (.ok front, bytes.drop count)

/-- Everything that is left. -/
def rest : Reader Bytes := fun bytes => (.ok bytes, [])

/-- How many octets are left. -/
def remaining : Reader Nat := fun bytes => (.ok bytes.length, bytes)

/-- The number that the next `width` octets spell. -/
def number (width : Nat) : Reader Nat := do
  return BigEndian.toNat (← take width)

def u8 : Reader UInt8 := do return UInt8.ofNat (← number 1)
def i8 : Reader Int8 := do return (UInt8.ofNat (← number 1)).toInt8
def u16 : Reader UInt16 := do return UInt16.ofNat (← number 2)
def i16 : Reader Int16 := do return (UInt16.ofNat (← number 2)).toInt16
def i32 : Reader Int32 := do return (UInt32.ofNat (← number 4)).toInt32
def u64 : Reader UInt64 := do return UInt64.ofNat (← number 8)
def i64 : Reader Int64 := do return (UInt64.ofNat (← number 8)).toInt64

/-- A truth value: any octet but zero is true. -/
def bool : Reader Bool := do return (← u8) ≠ 0

/-! ## Arrays and texts -/

/-- A count that a four-octet number gives. -/
def count : Reader Nat := do
  let n ← i32
  if n < 0 then fail (.arrayLength n) else return n.toNatClampNeg

/-- An array's length, none for a null array. -/
def arrayLength : Reader (Option Nat) := do
  let mark ← u8
  if mark = 0xFF then return none
  else if mark = 0xFE then return some (← u16).toNat
  else if mark = 0xFD then return some (← count)
  else return some mark.toNat

/-- An array of octets, none if it is null. -/
def optionalBytes : Reader (Option Bytes) := do
  match ← arrayLength with
  | some length => return some (← take length)
  | none => return none

/-- An array of octets that must not be null. -/
def bytes : Reader Bytes := do
  match ← optionalBytes with
  | some bytes => return bytes
  | none => fail (.malformed .nullArray)

/-- A text: a two-octet length and that many octets of UTF-8. -/
def text : Reader String := do
  let length ← u16
  let octets ← take length.toNat
  match Text.ofBytes octets with
  | .ok text => return text
  | .error why => fail (.notText why)

/-- As many values as the count says, behind the ones read already. `done` is held in reverse. -/
def repeatedOnto (reader : Reader α) : Nat → (done : List α) → Reader (List α)
  | 0, done => fun bytes => (.ok done.reverse, bytes)
  | n + 1, done => fun bytes =>
    match reader bytes with
    | (.ok a, rest) => repeatedOnto reader n (a :: done) rest
    | (.error fault, rest) => (.error fault, rest)

/-- As many values as the count says, one after another. -/
def repeated (reader : Reader α) (n : Nat) : Reader (List α) :=
  repeatedOnto reader n []

end Reader

end DataGrid
