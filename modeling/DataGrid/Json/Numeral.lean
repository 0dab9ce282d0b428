import DataGrid.Json.Value
import DataGrid.Wire.Bytes

/-!
# Numerals — the numbers of a JSON text

A numeral is read digit by digit. A whole number that fits sixty-four bits is kept as it is.
Anything else becomes a floating-point number in two steps of floating-point arithmetic, each of
which rounds: the leading digits, as many as fit sixty-four bits, are rounded to a number, and
that number is multiplied or divided by a power of ten. So a numeral of many digits need not give
the floating-point number nearest to it. A numeral whose number would be infinite is refused.
-/

namespace DataGrid

/-- A numeral as it stands: its digits before and after the point, and its exponent. -/
structure Numeral where
  negative : Bool
  whole : List Nat
  fraction : Option (List Nat)
  exponent : Option Int
  deriving DecidableEq, Repr

namespace Numeral

/-! ## Reading the digits -/

/-- The digit that an octet stands for. -/
def digit? (byte : UInt8) : Option Nat :=
  if 0x30 ≤ byte && byte ≤ 0x39 then some (byte.toNat - 0x30) else none

/-- The digits at the front of octets, and the rest. `done` is held in reverse. -/
def digitsOnto (done : List Nat) : Bytes → List Nat × Bytes
  | [] => (done.reverse, [])
  | byte :: rest =>
    match digit? byte with
    | some d => digitsOnto (d :: done) rest
    | none => (done.reverse, byte :: rest)

/-- The digits at the front of octets, at least one. -/
def digits? (bytes : Bytes) : Option (List Nat × Bytes) :=
  match digitsOnto [] bytes with
  | ([], _) => none
  | found => some found

/-- The number that decimal digits spell. -/
def spell (digits : List Nat) : Nat := digits.foldl (fun n d => n * 10 + d) 0

/-- The digits before the point: a zero stands alone. -/
def whole? (bytes : Bytes) : Option (List Nat × Bytes) :=
  match digits? bytes with
  | some (0 :: _ :: _, _) => none
  | found => found

/-- A point and the digits after it, if a point comes next. -/
def fraction? : Bytes → Option (Option (List Nat) × Bytes)
  | 0x2E :: rest => (digits? rest).map fun (ds, rest) => (some ds, rest)
  | bytes => some (none, bytes)

/-- The sign of an exponent, if there is one, and whether it is a minus. -/
def exponentSign : Bytes → Bool × Bytes
  | 0x2B :: rest => (false, rest)
  | 0x2D :: rest => (true, rest)
  | bytes => (false, bytes)

/-- An exponent, if its mark comes next. -/
def exponent? : Bytes → Option (Option Int × Bytes)
  | [] => some (none, [])
  | byte :: rest =>
    if byte = 0x65 ∨ byte = 0x45 then
      let (minus, rest) := exponentSign rest
      (digits? rest).map fun (ds, rest) =>
        (some (if minus then -(spell ds : Int) else spell ds), rest)
    else some (none, byte :: rest)

/-- The numeral at the front of octets. -/
def read? (bytes : Bytes) : Option (Numeral × Bytes) := do
  let (negative, bytes) := match bytes with
    | 0x2D :: rest => (true, rest)
    | bytes => (false, bytes)
  let (whole, bytes) ← whole? bytes
  let (fraction, bytes) ← fraction? bytes
  let (exponent, bytes) ← exponent? bytes
  return ({ negative, whole, fraction, exponent }, bytes)

/-! ## The number of a numeral -/

/-- As many digits as keep the number below `2 ^ 64`, and the digits that are left. -/
def absorb (n : Nat) : List Nat → Nat × List Nat
  | [] => (n, [])
  | d :: rest => if n * 10 + d < UInt64.size then absorb (n * 10 + d) rest else (n, d :: rest)

/-- The floating-point number nearest to a power of ten that it can hold. -/
def powerOfTen (n : Nat) : Binary64 := (Binary64.ofRatio (Binary64.tenTo n) 1).getD .zero

/-- The number divided by a power of ten, in steps of at most `10 ^ 308`. Any number below
`2 ^ 64` is zero after two full steps. -/
def shrink (x : Binary64) : (steps power : Nat) → Binary64
  | 0, _ => .zero
  | steps + 1, power =>
    if power ≤ 308 then (x.divide (powerOfTen power)).getD .zero
    else shrink ((x.divide (powerOfTen 308)).getD .zero) steps (power - 308)

/-- `n * 10 ^ power` in floating-point arithmetic, none if it is infinite. -/
def float? (n : Nat) (power : Int) : Option Binary64 := do
  if n = 0 then return .zero
  let x ← Binary64.ofRatio n 1
  if 0 ≤ power then
    if power ≤ 308 then x.multiply (powerOfTen power.toNat) else none
  else return shrink x 4 (-power).toNat

/-- The number that a numeral stands for, none if it is infinite. -/
def value? (numeral : Numeral) : Option JsonNumber := do
  let signed (x : Binary64) : JsonNumber := .float (if numeral.negative then x.negate else x)
  match absorb 0 numeral.whole, numeral.fraction, numeral.exponent with
  | (n, []), none, none =>
    if !numeral.negative then return .natural (UInt64.ofNat n)
    else if n = 0 ∨ Binary64.signWeight < n then return signed (← float? n 0)
    else return .negative (Int64.ofInt (-(n : Int)))
  | (n, left), fraction, exponent =>
    let digits := fraction.getD []
    let (n, unused) := absorb n digits
    let places : Int := digits.length - unused.length
    return signed (← float? n (left.length - places + exponent.getD 0))

end Numeral

end DataGrid
