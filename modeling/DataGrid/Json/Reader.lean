import DataGrid.Json.Numeral
import DataGrid.Wire.Hex

/-!
# Reading JSON

A text is read strictly and as octets: nothing but blanks may stand around a value, escapes must
be known, surrogates must come in pairs, and a string must be UTF-8. At most a given number of
lists and objects may be open at once. Of two fields with one name the later counts.

A value that nobody asks for can be skipped. Then only its syntax is checked: not how deep it
goes, how large its numbers are, or what its strings spell.

Every reader gives back the octets that follow what it read. The readers of nested values carry a
bound on the calls they may make in a row; a text's length bounds that (`enough`).
-/

namespace DataGrid

namespace Json

/-! ## Blanks and marks -/

def isBlank (byte : UInt8) : Bool :=
  byte = 0x20 || byte = 0x09 || byte = 0x0A || byte = 0x0D

/-- The octets after any blanks. -/
def skipBlanks : Bytes → Bytes
  | [] => []
  | byte :: rest => if isBlank byte then skipBlanks rest else byte :: rest

/-- The octets after blanks and a mark, if the mark comes next. -/
def mark? (mark : UInt8) (bytes : Bytes) : Option Bytes :=
  match skipBlanks bytes with
  | [] => none
  | byte :: rest => if byte = mark then some rest else none

/-- The octets after a word, if it comes next. -/
def word? : (word : Bytes) → Bytes → Option Bytes
  | [], bytes => some bytes
  | _ :: _, [] => none
  | w :: word, byte :: rest => if byte = w then word? word rest else none

def nullWord : Bytes := [0x6E, 0x75, 0x6C, 0x6C]
def trueWord : Bytes := [0x74, 0x72, 0x75, 0x65]
def falseWord : Bytes := [0x66, 0x61, 0x6C, 0x73, 0x65]

/-! ## Strings -/

/-- The number that four hexadecimal digits spell. -/
def unit? (a b c d : UInt8) : Option Nat := do
  return (← Hex.value? a) * 4096 + (← Hex.value? b) * 256 + (← Hex.value? c) * 16
    + (← Hex.value? d)

/-- The octet that a one-letter escape stands for. -/
def escaped? (letter : UInt8) : Option UInt8 :=
  if letter = 0x22 ∨ letter = 0x5C ∨ letter = 0x2F then some letter
  else if letter = 0x62 then some 0x08
  else if letter = 0x66 then some 0x0C
  else if letter = 0x6E then some 0x0A
  else if letter = 0x72 then some 0x0D
  else if letter = 0x74 then some 0x09
  else none

/-- The octets of a code point. -/
def encodePoint (n : Nat) : Bytes := String.utf8EncodeChar (Char.ofNat n)

/-- The octets of a string behind its opening mark, escapes resolved. `done` is held in
reverse. -/
def stringOnto (done : Bytes) : Bytes → Option (Bytes × Bytes)
  | [] => none
  | byte :: rest =>
    if byte = 0x22 then some (done.reverse, rest)
    else if byte = 0x5C then
      match rest with
      | [] => none
      | letter :: rest =>
        if letter = 0x75 then
          match rest with
          | a :: b :: c :: d :: rest =>
            match unit? a b c d with
            | none => none
            | some high =>
              if high < 0xD800 ∨ 0xDFFF < high then
                stringOnto ((encodePoint high).reverse ++ done) rest
              else if 0xDC00 ≤ high then none
              else
                match rest with
                | slash :: u :: a :: b :: c :: d :: rest =>
                  if slash = 0x5C ∧ u = 0x75 then
                    match unit? a b c d with
                    | none => none
                    | some low =>
                      if 0xDC00 ≤ low ∧ low ≤ 0xDFFF then
                        let point := (high - 0xD800) * 1024 + (low - 0xDC00) + 0x10000
                        stringOnto ((encodePoint point).reverse ++ done) rest
                      else none
                  else none
                | _ => none
          | _ => none
        else
          match escaped? letter with
          | some byte => stringOnto (byte :: done) rest
          | none => none
    else if byte < 0x20 then none
    else stringOnto (byte :: done) rest

/-- The text behind an opening quotation mark. -/
def stringBody? (bytes : Bytes) : Option (String × Bytes) := do
  let (octets, rest) ← stringOnto [] bytes
  match Text.ofBytes octets with
  | .ok s => return (s, rest)
  | .error _ => none

/-- A string, after blanks. -/
def string? (bytes : Bytes) : Option (String × Bytes) := do
  stringBody? (← mark? 0x22 bytes)

/-- The octets after a string whose opening mark was read, whatever it spells. -/
def skipString : Bytes → Option Bytes
  | [] => none
  | byte :: rest =>
    if byte = 0x22 then some rest
    else if byte = 0x5C then
      match rest with
      | [] => none
      | letter :: rest =>
        if letter = 0x75 then
          match rest with
          | a :: b :: c :: d :: rest => if (unit? a b c d).isSome then skipString rest else none
          | _ => none
        else if (escaped? letter).isSome then skipString rest
        else none
    else if byte < 0x20 then none
    else skipString rest

/-! ## Values -/

/-- A number of calls that no text can outrun: each octet is the occasion of two at most. -/
def enough (bytes : Bytes) : Nat := 2 * bytes.length + 2

/-- How many lists and objects may be open at once. -/
def depthLimit : Nat := 127

mutual

/-- A value, after blanks, with at most `room` lists and objects open at once. -/
def value? : (fuel room : Nat) → Bytes → Option (Json × Bytes)
  | 0, _, _ => none
  | fuel + 1, room, bytes =>
    match skipBlanks bytes with
    | [] => none
    | byte :: rest =>
      if byte = 0x22 then (stringBody? rest).map fun (s, rest) => (.text s, rest)
      else if byte = 0x5B then
        match room with
        | 0 => none
        | room + 1 =>
          match mark? 0x5D rest with
          | some rest => some (.list [], rest)
          | none => itemsOnto fuel room [] rest
      else if byte = 0x7B then
        match room with
        | 0 => none
        | room + 1 =>
          match mark? 0x7D rest with
          | some rest => some (.object [], rest)
          | none => fieldsOnto fuel room [] rest
      else if byte = 0x6E then (word? nullWord (byte :: rest)).map fun rest => (.null, rest)
      else if byte = 0x74 then (word? trueWord (byte :: rest)).map fun rest => (.bool true, rest)
      else if byte = 0x66 then (word? falseWord (byte :: rest)).map fun rest => (.bool false, rest)
      else do
        let (numeral, rest) ← Numeral.read? (byte :: rest)
        return (.number (← numeral.value?), rest)

/-- The items of a list up to its end. `done` is held in reverse. -/
def itemsOnto : (fuel room : Nat) → (done : List Json) → Bytes → Option (Json × Bytes)
  | 0, _, _, _ => none
  | fuel + 1, room, done, bytes =>
    match value? fuel room bytes with
    | none => none
    | some (item, rest) =>
      match skipBlanks rest with
      | [] => none
      | byte :: rest =>
        if byte = 0x2C then itemsOnto fuel room (item :: done) rest
        else if byte = 0x5D then some (.list (item :: done).reverse, rest)
        else none

/-- The fields of an object up to its end. -/
def fieldsOnto : (fuel room : Nat) → (done : List (String × Json)) → Bytes → Option (Json × Bytes)
  | 0, _, _, _ => none
  | fuel + 1, room, done, bytes =>
    match string? bytes with
    | none => none
    | some (name, rest) =>
      match mark? 0x3A rest with
      | none => none
      | some rest =>
        match value? fuel room rest with
        | none => none
        | some (value, rest) =>
          match skipBlanks rest with
          | [] => none
          | byte :: rest =>
            if byte = 0x2C then fieldsOnto fuel room (setField name value done) rest
            else if byte = 0x7D then some (.object (setField name value done), rest)
            else none

end

/-- The value that a text spells. -/
def read? (bytes : Bytes) : Option Json := do
  let (json, rest) ← value? (enough bytes) depthLimit bytes
  if skipBlanks rest = [] then some json else none

mutual

/-- The octets after a value that nobody asks for. -/
def skipValue : (fuel : Nat) → Bytes → Option Bytes
  | 0, _ => none
  | fuel + 1, bytes =>
    match skipBlanks bytes with
    | [] => none
    | byte :: rest =>
      if byte = 0x22 then skipString rest
      else if byte = 0x5B then
        match mark? 0x5D rest with
        | some rest => some rest
        | none => skipItems fuel rest
      else if byte = 0x7B then
        match mark? 0x7D rest with
        | some rest => some rest
        | none => skipFields fuel rest
      else if byte = 0x6E then word? nullWord (byte :: rest)
      else if byte = 0x74 then word? trueWord (byte :: rest)
      else if byte = 0x66 then word? falseWord (byte :: rest)
      else (Numeral.read? (byte :: rest)).map (·.2)

/-- The octets after the items of a list and its end. -/
def skipItems : (fuel : Nat) → Bytes → Option Bytes
  | 0, _ => none
  | fuel + 1, bytes =>
    match skipValue fuel bytes with
    | none => none
    | some rest =>
      match skipBlanks rest with
      | [] => none
      | byte :: rest =>
        if byte = 0x2C then skipItems fuel rest
        else if byte = 0x5D then some rest
        else none

/-- The octets after the fields of an object and its end. -/
def skipFields : (fuel : Nat) → Bytes → Option Bytes
  | 0, _ => none
  | fuel + 1, bytes =>
    match (mark? 0x22 bytes).bind skipString with
    | none => none
    | some rest =>
      match (mark? 0x3A rest).bind (skipValue fuel) with
      | none => none
      | some rest =>
        match skipBlanks rest with
        | [] => none
        | byte :: rest =>
          if byte = 0x2C then skipFields fuel rest
          else if byte = 0x7D then some rest
          else none

end

end Json

end DataGrid
