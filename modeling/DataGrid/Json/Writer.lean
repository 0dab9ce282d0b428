import DataGrid.Json.Value
import DataGrid.Number.Shortest
import DataGrid.Wire.Hex

/-!
# Writing JSON

The text of a value has no spaces. In a string only the quotation mark, the backslash and the
control characters are escaped; all of them are single octets, so escaping works on the octets of
the text and leaves the rest of its UTF-8 alone.
-/

namespace DataGrid

namespace Json

/-- Octets that a text spells in ASCII. -/
def ascii (s : String) : Bytes := Text.toBytes s

/-- How an octet of a text stands between quotation marks. -/
def escape (byte : UInt8) : Bytes :=
  if byte = 0x22 then [0x5C, 0x22]
  else if byte = 0x5C then [0x5C, 0x5C]
  else if byte = 0x08 then [0x5C, 0x62]
  else if byte = 0x0C then [0x5C, 0x66]
  else if byte = 0x0A then [0x5C, 0x6E]
  else if byte = 0x0D then [0x5C, 0x72]
  else if byte = 0x09 then [0x5C, 0x74]
  else if byte < 0x20 then
    [0x5C, 0x75, 0x30, 0x30] ++ Hex.pair byte
  else [byte]

/-- A text between quotation marks. -/
def quote (s : String) : Bytes :=
  0x22 :: ((Text.toBytes s).flatMap escape ++ [0x22])

/-- A number. One that is not finite has no text and is written as null. -/
def writeNumber : JsonNumber → Bytes
  | .natural n => ascii (toString n.toNat)
  | .negative n => ascii (toString n.toInt)
  | .float x => ascii (if x.isFinite then x.text else "null")

/-- Texts with a comma between one and the next. -/
def joined : List Bytes → Bytes
  | [] => []
  | [last] => last
  | first :: rest => first ++ 0x2C :: joined rest

mutual

/-- The text of a value. -/
def write : Json → Bytes
  | .null => [0x6E, 0x75, 0x6C, 0x6C]
  | .bool true => [0x74, 0x72, 0x75, 0x65]
  | .bool false => [0x66, 0x61, 0x6C, 0x73, 0x65]
  | .number n => writeNumber n
  | .text s => quote s
  | .list items => 0x5B :: (joined (writeItems items) ++ [0x5D])
  | .object fields => 0x7B :: (joined (writeFields fields) ++ [0x7D])

/-- The texts of the values of a list. -/
def writeItems : List Json → List Bytes
  | [] => []
  | item :: rest => write item :: writeItems rest

/-- The texts of the fields of an object. -/
def writeFields : List (String × Json) → List Bytes
  | [] => []
  | (name, value) :: rest => (quote name ++ 0x3A :: write value) :: writeFields rest

end

end Json

end DataGrid
