import DataGrid.Wire.Utf8

/-!
# Hex — octets as hexadecimal digits

Two digits spell an octet, the higher one first. Digits are written in lower case and read in
either case. What was written reads back (`decode?_encode`).
-/

namespace DataGrid

namespace Hex

/-- The lower-case digit of a number below sixteen. -/
def digit (n : Nat) : UInt8 :=
  UInt8.ofNat (if n < 10 then 0x30 + n else 0x57 + n)

/-- The number that a digit stands for. -/
def value? (byte : UInt8) : Option Nat :=
  if 0x30 ≤ byte && byte ≤ 0x39 then some (byte.toNat - 0x30)
  else if 0x41 ≤ byte && byte ≤ 0x46 then some (byte.toNat - 0x37)
  else if 0x61 ≤ byte && byte ≤ 0x66 then some (byte.toNat - 0x57)
  else none

/-- The two digits of an octet. -/
def pair (byte : UInt8) : Bytes := [digit (byte.toNat / 16), digit (byte.toNat % 16)]

/-- The digits of octets. -/
def encode (bytes : Bytes) : Bytes := bytes.flatMap pair

/-- The octets that digits spell, if they are digits and come in pairs. -/
def decode? : Bytes → Option Bytes
  | [] => some []
  | [_] => none
  | high :: low :: rest => do
    let byte := UInt8.ofNat ((← value? high) * 16 + (← value? low))
    return byte :: (← decode? rest)

/-- A digit stands for its number. -/
theorem value?_digit {n : Nat} (h : n < 16) : value? (digit n) = some n := by
  have : ∀ n : Fin 16, value? (digit n.val) = some n.val := by decide
  exact this ⟨n, h⟩

/-- **What was written reads back.** -/
theorem decode?_encode (bytes : Bytes) : decode? (encode bytes) = some bytes := by
  induction bytes with
  | nil => rfl
  | cons byte rest ih =>
    have hhigh : byte.toNat / 16 < 16 := by
      have := byte.toNat_lt
      omega
    have hlow : byte.toNat % 16 < 16 := Nat.mod_lt _ (by decide)
    have hbyte : UInt8.ofNat (byte.toNat / 16 * 16 + byte.toNat % 16) = byte := by
      rw [Nat.div_add_mod' byte.toNat 16, UInt8.ofNat_toNat]
    have hcons : encode (byte :: rest)
        = digit (byte.toNat / 16) :: digit (byte.toNat % 16) :: encode rest := rfl
    rw [hcons, decode?, value?_digit hhigh, value?_digit hlow, ih]
    exact congrArg (fun b => some (b :: rest)) hbyte

/-- Octets as a text of digits. -/
def toText (bytes : Bytes) : String :=
  String.ofList ((encode bytes).map fun d => Char.ofNat d.toNat)

/-- The octets that a text of digits spells. -/
def ofText? (text : String) : Option Bytes := decode? (Text.toBytes text)

end Hex

end DataGrid
