import DataGrid.Wire.Bytes

/-!
# Utf8 — text as octets

Text travels as UTF-8. `Text.toBytes` writes it and `Text.ofBytes` reads it back; each undoes the
other (`ofBytes_toBytes`, `toBytes_of_ofBytes`). Octets that are no text are told apart by
`Utf8.diagnose`: either a sequence is broken outright, or the octets end inside one that could
still have become a character. `Text.lossy` shows such octets anyway, with one replacement
character for each broken stretch.
-/

namespace DataGrid

namespace Utf8

/-- Why octets are no UTF-8, and where the text before the trouble ends. -/
inductive Fault where
  /-- A stretch of `length` octets at `index` can begin no character. -/
  | invalid (length index : Nat)
  /-- The octets end inside a character that begins at `index`. -/
  | incomplete (index : Nat)
  deriving DecidableEq, Repr

/-- What stands at the front of the octets. -/
inductive Front where
  /-- A whole character of this many octets. -/
  | char (length : Nat)
  /-- A stretch of this many octets that no octet could mend. -/
  | broken (length : Nat)
  /-- The beginning of a character that the octets end inside. -/
  | cut
  deriving DecidableEq, Repr

/-- Whether an octet continues a character. -/
def isContinuation (byte : UInt8) : Bool :=
  0x80 ≤ byte && byte ≤ 0xBF

/-- Whether `second` may follow the leading octet of a character of three or four octets. Overlong
forms, surrogates and numbers past the last code point are refused here. -/
def isSecond (first second : UInt8) : Bool :=
  if first = 0xE0 then 0xA0 ≤ second && second ≤ 0xBF
  else if first = 0xED then 0x80 ≤ second && second ≤ 0x9F
  else if first = 0xF0 then 0x90 ≤ second && second ≤ 0xBF
  else if first = 0xF4 then 0x80 ≤ second && second ≤ 0x8F
  else isContinuation second

/-- The number of octets of a character with this leading octet, if it leads one. -/
def widthOf (first : UInt8) : Option Nat :=
  if first < 0x80 then some 1
  else if 0xC2 ≤ first && first ≤ 0xDF then some 2
  else if 0xE0 ≤ first && first ≤ 0xEF then some 3
  else if 0xF0 ≤ first && first ≤ 0xF4 then some 4
  else none

/-- The state of a character after `seen` good octets, with `missing` still to come. -/
def continued : (missing seen : Nat) → Bytes → Front
  | 0, seen, _ => .char seen
  | _ + 1, _, [] => .cut
  | missing + 1, seen, byte :: rest =>
    if isContinuation byte then continued missing (seen + 1) rest else .broken seen

/-- What stands at the front of nonempty octets. -/
def front (first : UInt8) (rest : Bytes) : Front :=
  match widthOf first with
  | none => .broken 1
  | some 1 => .char 1
  | some 2 => continued 1 1 rest
  | some width =>
    match rest with
    | [] => .cut
    | second :: rest => if isSecond first second then continued (width - 2) 2 rest else .broken 1

/-- A scan of at most `fuel` characters from `index` on. -/
def scan : (fuel index : Nat) → Bytes → Fault
  | 0, index, _ => .incomplete index
  | _ + 1, index, [] => .incomplete index
  | fuel + 1, index, first :: rest =>
    match front first rest with
    | .char length => scan fuel (index + length) (rest.drop (length - 1))
    | .broken length => .invalid length index
    | .cut => .incomplete index

/-- Where octets stop being text, and why. -/
def diagnose (bytes : Bytes) : Fault :=
  scan (bytes.length + 1) 0 bytes

/-- The replacement character. -/
def replacement : Bytes := [0xEF, 0xBF, 0xBD]

/-- At most `fuel` stretches of the octets, broken ones replaced, behind what was mended already.
`done` is held in reverse. -/
def mendOnto : (fuel : Nat) → (done : Bytes) → Bytes → Bytes
  | 0, done, _ => done.reverse
  | _ + 1, done, [] => done.reverse
  | fuel + 1, done, first :: rest =>
    match front first rest with
    | .char length =>
      mendOnto fuel ((rest.take (length - 1)).reverse ++ first :: done) (rest.drop (length - 1))
    | .broken length => mendOnto fuel (replacement.reverse ++ done) (rest.drop (length - 1))
    | .cut => (replacement.reverse ++ done).reverse

/-- The octets with one replacement character for each longest broken stretch. -/
def mend (bytes : Bytes) : Bytes :=
  mendOnto bytes.length [] bytes

namespace Fault

/-- What the fault says. -/
def message : Fault → String
  | .invalid length index =>
    s!"invalid utf-8 sequence of {length} bytes from index {index}"
  | .incomplete index => s!"incomplete utf-8 byte sequence from index {index}"

end Fault

end Utf8

namespace Text

/-- The octets of a text. -/
def toBytes (text : String) : Bytes :=
  text.toByteArray.data.toList

/-- The text that octets spell. -/
def ofBytes (bytes : Bytes) : Except Utf8.Fault String :=
  match String.fromUTF8? ⟨bytes.toArray⟩ with
  | some text => .ok text
  | none => .error (Utf8.diagnose bytes)

/-- The text that octets spell, with broken stretches replaced. -/
def lossy (bytes : Bytes) : String :=
  match ofBytes (Utf8.mend bytes) with
  | .ok text => text
  | .error _ => ""

/-- **Text reads back from its octets.** -/
@[simp] theorem ofBytes_toBytes (text : String) : ofBytes (toBytes text) = .ok text := by
  have h : (⟨(toBytes text).toArray⟩ : ByteArray) = text.toByteArray := by
    simp [toBytes]
  rw [ofBytes, h, String.fromUTF8?, dif_pos (by simpa using text.isValidUTF8)]
  rfl

/-- **Octets that read as a text are its octets.** -/
theorem toBytes_of_ofBytes {bytes : Bytes} {text : String} (h : ofBytes bytes = .ok text) :
    bytes = toBytes text := by
  unfold ofBytes String.fromUTF8? at h
  split at h
  · next heq =>
    cases h
    split at heq
    · cases heq; simp [toBytes, String.fromUTF8]
    · cases heq
  · cases h

end Text

end DataGrid
