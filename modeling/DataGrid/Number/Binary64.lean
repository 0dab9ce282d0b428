/-!
# Binary64 — floating-point numbers as their bits

A score, or a fraction in a payload, is the sixty-four bits of a binary floating-point number:
a sign, eleven bits of exponent and fifty-two of fraction. Two relations on them matter and they
differ. Numerically a NaN equals nothing and the two zeros are one number (`sameNumber`); in the
total order every bit pattern has its own place (`totalKey`), negative NaNs first and positive
NaNs last.

Arithmetic is exact: a finite number is a ratio of natural numbers, and `ofRatio` rounds a ratio
to the nearest number, ties to the even one.
-/

namespace DataGrid

/-- A binary floating-point number of sixty-four bits. -/
structure Binary64 where
  bits : UInt64
  deriving DecidableEq, Repr

namespace Binary64

/-- The weight of the sign bit, `2 ^ 63`. -/
def signWeight : Nat := 0x8000000000000000

/-- The weight of the exponent's lowest bit, `2 ^ 52`: so many fractions share an exponent. -/
def exponentWeight : Nat := 0x10000000000000

/-- Whether the sign bit is set. -/
def isNegative (x : Binary64) : Bool := signWeight ≤ x.bits.toNat

/-- The bits without the sign. -/
def magnitude (x : Binary64) : Nat := x.bits.toNat % signWeight

/-- The magnitude of infinity; larger ones are no numbers. -/
def infinity : Nat := 2047 * exponentWeight

def isFinite (x : Binary64) : Bool := x.magnitude < infinity
def isNaN (x : Binary64) : Bool := infinity < x.magnitude

/-- The number with the sign turned. -/
def negate (x : Binary64) : Binary64 := ⟨x.bits ^^^ 0x8000000000000000⟩

def zero : Binary64 := ⟨0⟩

/-- **Numeric equality**: NaN is unequal to everything, and the zeros are equal. -/
def sameNumber (x y : Binary64) : Bool :=
  !x.isNaN && !y.isNaN && (x.bits == y.bits || (x.magnitude == 0 && y.magnitude == 0))

/-- The place of the number in the total order of all bit patterns. -/
def totalKey (x : Binary64) : Nat :=
  if x.isNegative then signWeight - 1 - x.magnitude else signWeight + x.magnitude

/-- The total order of bit patterns. -/
def totalCompare (x y : Binary64) : Ordering :=
  compare x.totalKey y.totalKey

/-! ## Exact values -/

/-- A power of ten. -/
def tenTo (n : Nat) : Nat := Nat.pow 10 n

/-- The whole number `m` of a finite number `m * 2 ^ q`. -/
def mantissa (x : Binary64) : Nat :=
  if x.magnitude < exponentWeight then x.magnitude
  else x.magnitude % exponentWeight + exponentWeight

/-- The exponent `q` of a finite number `m * 2 ^ q`, raised by 1074. -/
def scale (x : Binary64) : Nat := x.magnitude / exponentWeight - 1

/-- The size of a finite number as a ratio. -/
def ratio (x : Binary64) : Nat × Nat :=
  if 1074 ≤ x.scale then (x.mantissa <<< (x.scale - 1074), 1)
  else (x.mantissa, 1 <<< (1074 - x.scale))

/-- A quotient rounded to the nearest whole number, ties to the even one. -/
def divRound (num den : Nat) : Nat :=
  let q := num / den
  let twice := 2 * (num % den)
  if den < twice || (den == twice && q % 2 == 1) then q + 1 else q

/-- The nearest number to a ratio, ties to the even mantissa; none if that is infinite. -/
def ofRatio (num den : Nat) : Option Binary64 :=
  if num = 0 then some zero
  else
    -- the scale at which the quotient has 53 or 54 binary digits, or the least scale
    let wide := num.log2 + 1074 - den.log2 - 53
    let quotient (scale : Nat) : Nat × Nat :=
      if 1074 ≤ scale then (num, den <<< (scale - 1074)) else (num <<< (1074 - scale), den)
    let (n, d) := quotient wide
    let scale := if 2 * exponentWeight ≤ n / d then wide + 1 else wide
    let (n, d) := quotient scale
    let magnitude := divRound n d + scale * exponentWeight
    if infinity ≤ magnitude then none else some ⟨UInt64.ofNat magnitude⟩

/-- The nearest number to a product of two numbers of positive sign. -/
def multiply (x y : Binary64) : Option Binary64 :=
  let (a, b) := x.ratio
  let (c, d) := y.ratio
  ofRatio (a * c) (b * d)

/-- The nearest number to a quotient of two numbers of positive sign. -/
def divide (x y : Binary64) : Option Binary64 :=
  let (a, b) := x.ratio
  let (c, d) := y.ratio
  ofRatio (a * d) (b * c)

end Binary64

end DataGrid
