import DataGrid.Member

/-!
# Uuid text — a uuid in twenty-six letters

A uuid is written in base thirty-two, five bits to a letter, in digits and the letters that are
not easily mistaken for digits: I, L, O and U are left out. Twenty-six letters hold two bits more
than a uuid has; on reading, what does not fit is dropped. Either case is read.
-/

namespace DataGrid

namespace Uuid

/-- The thirty-two digits. -/
def alphabet : List Char := "0123456789ABCDEFGHJKMNPQRSTVWXYZ".toList

/-- The digit of a number below thirty-two. -/
def letter (n : Nat) : Char := alphabet.getD n '0'

/-- The number that a digit of either case stands for. -/
def letterValue? (c : Char) : Option Nat :=
  let index := alphabet.findIdx (· == c.toUpper)
  if index < alphabet.length then some index else none

/-- The lowest `count` digits of a number. -/
def letters (n : Nat) : (count : Nat) → List Char
  | 0 => []
  | count + 1 => letter ((n >>> (5 * count)) % 32) :: letters n count

/-- The text of a uuid. -/
def toText (uuid : Uuid) : String := String.ofList (letters uuid.bits.toNat 26)

/-- The uuid that a text spells. -/
def ofText? (text : String) : Option Uuid := do
  let cs := text.toList
  if cs.length ≠ 26 then none
  let values ← cs.mapM letterValue?
  return ⟨BitVec.ofNat 128 (values.foldl (fun n v => n * 32 + v) 0)⟩

end Uuid

end DataGrid
