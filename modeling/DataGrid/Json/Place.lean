/-!
# Place — where a failure lies

The text of a failure can end by saying where the failure lies, as in `no digit at line 2 column 7`.
Such an end is written in one way (`Place.normalize`): without leading zeros, and not at all for
line zero, which is no line. An end that does not say a place is part of the text.
-/

namespace DataGrid

/-- A place in a text. -/
structure Place where
  line : Nat
  column : Nat
  deriving DecidableEq, Repr

namespace Place

/-- The number that digits go on to spell, if it fits sixty-four bits. -/
def digitOnto (n : Nat) (digit : Char) : Option Nat :=
  let n := n * 10 + (digit.toNat - '0'.toNat)
  if n < UInt64.size then some n else none

/-- The number that digits spell, if there are any and it fits sixty-four bits. -/
def number? : List Char → Option Nat
  | [] => none
  | digits => digits.foldlM digitOnto 0

/-- The number at the end of a text, read from its end, and the text before the words that come
before the number. -/
def ending? (words : String) (reversed : List Char) : Option (Nat × List Char) := do
  let n ← number? (reversed.takeWhile Char.isDigit).reverse
  let rest ← words.toList.reverse.isPrefixOf? (reversed.dropWhile Char.isDigit)
  return (n, rest)

/-- A text that ends in a place: the text before it, and the place. -/
def split? (text : List Char) : Option (List Char × Place) := do
  let (column, rest) ← ending? " column " text.reverse
  let (line, rest) ← ending? " at line " rest
  return (rest.reverse, { line, column })

/-- The place as the end of a text. -/
def ending (p : Place) : String :=
  if p.line = 0 then "" else s!" at line {p.line} column {p.column}"

/-- A text with the place that it ends in written in the one way. -/
def normalize (text : String) : String :=
  match split? text.toList with
  | some (front, place) => String.ofList front ++ place.ending
  | none => text

end Place

end DataGrid
