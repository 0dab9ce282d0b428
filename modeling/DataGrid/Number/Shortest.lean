import DataGrid.Number.Binary64

/-!
# Shortest — the fewest digits that read back

A finite number is written with the fewest decimal digits that read back as the same number, and
of those the nearest to it. The numbers that read back form an interval around the number, its
ends included when the mantissa is even. For one digit, two digits and so on, the two neighbours
of the number on the decimal grid are tried; the first grid with a neighbour in the interval has
the answer, because if any point of a grid lies in the interval then so does a neighbour.
-/

namespace DataGrid

namespace Binary64

/-- The decimal digits of a number: `digits * 10 ^ exponent`, where `digits` has `count` digits. -/
structure Decimal where
  digits : Nat
  count : Nat
  exponent : Int
  deriving DecidableEq, Repr

/-- `num / den ≤ digits * 10 ^ exponent`, in natural numbers. -/
def ratioLe (num den digits : Nat) (exponent : Int) : Bool :=
  if 0 ≤ exponent then num ≤ digits * tenTo exponent.toNat * den
  else num * tenTo (-exponent).toNat ≤ digits * den

/-- `digits * 10 ^ exponent ≤ num / den`, in natural numbers. -/
def leRatio (num den digits : Nat) (exponent : Int) : Bool :=
  if 0 ≤ exponent then digits * tenTo exponent.toNat * den ≤ num
  else digits * den ≤ num * tenTo (-exponent).toNat

/-- The whole part of `num / den / 10 ^ exponent`. -/
def wholePart (num den : Nat) (exponent : Int) : Nat :=
  if 0 ≤ exponent then num / (den * tenTo exponent.toNat)
  else num * tenTo (-exponent).toNat / den

/-- The interval of ratios that read back as a number, as numerators over four times its
denominator: the lower end, the number and the upper end. -/
def interval (x : Binary64) : Nat × Nat × Nat :=
  let (num, _) := x.ratio
  let unit := num / x.mantissa
  -- below a power of two the neighbour is only half as far away
  let below := if x.mantissa = exponentWeight ∧ 0 < x.scale then unit else 2 * unit
  (4 * num - below, 4 * num, 4 * num + 2 * unit)

/-- The decimal exponent of `num / den`: the number of its digits before the point, less one. -/
def decimalExponent (num den : Nat) : Int :=
  -- a ratio of binary numbers has this exponent or one more
  let guess : Int := ((num.log2 : Int) - (den.log2 : Int) - 1) * 30103 / 100000 - 1
  let rec climb : Nat → Int → Int
    | 0, e => e
    | fuel + 1, e => if leRatio num den 1 (e + 1) then climb fuel (e + 1) else e
  climb 4 guess

/-- The neighbour of a number on the grid of `count` digits that reads back, if one does; of two
the nearer, and of two equally near the even one. -/
def onGrid (x : Binary64) (top : Int) (count : Nat) : Option Decimal :=
  let (low, mid, high) := x.interval
  let den := 4 * x.ratio.2
  let exponent := top - count + 1
  let down := wholePart mid den exponent
  let inclusive := x.mantissa % 2 == 0
  let downIn := if inclusive then ratioLe low den down exponent
    else !leRatio low den down exponent
  let upIn := if inclusive then leRatio high den (down + 1) exponent
    else !ratioLe high den (down + 1) exponent
  -- twice the number against the sum of its neighbours
  let middle := 2 * down + 1
  let nearerUp := leRatio (2 * mid) den middle exponent
    && (!ratioLe (2 * mid) den middle exponent || down % 2 == 1)
  if downIn && upIn then some ⟨if nearerUp then down + 1 else down, count, exponent⟩
  else if downIn then some ⟨down, count, exponent⟩
  else if upIn then some ⟨down + 1, count, exponent⟩
  else none

/-- The first grid from `count` digits on that has an answer. -/
def searchFrom (x : Binary64) (top : Int) : (fuel count : Nat) → Decimal
  | 0, count => ⟨wholePart x.ratio.1 x.ratio.2 (top - count + 1), count, top - count + 1⟩
  | fuel + 1, count =>
    match onGrid x top count with
    | some decimal => decimal
    | none => searchFrom x top fuel (count + 1)

/-- The shortest digits of a finite number other than zero. -/
def shortest (x : Binary64) : Decimal :=
  searchFrom x (decimalExponent x.ratio.1 x.ratio.2) 17 1

/-- A whole number's digits. -/
def digitsOf (n : Nat) : List Char := (toString n).toList

/-- Digits with the point after the first `whole` of them, zeros filled in on either side. -/
def placePoint (digits : List Char) (whole : Int) : List Char :=
  if whole ≤ 0 then
    ['0', '.'] ++ List.replicate (-whole).toNat '0' ++ digits
  else
    let whole := whole.toNat
    if digits.length ≤ whole then
      digits ++ List.replicate (whole - digits.length) '0' ++ ['.', '0']
    else digits.take whole ++ '.' :: digits.drop whole

/-- Digits with the point after the first and an exponent whose sign is always written. -/
def withExponent (digits : List Char) (exponent : Int) : List Char :=
  let mark := if exponent < 0 then ['e', '-'] else ['e', '+']
  let front := match digits with
    | first :: second :: rest => first :: '.' :: second :: rest
    | short => short
  front ++ mark ++ digitsOf exponent.natAbs

/-- The text of a finite number: with a point and at least one digit on either side of it from
`1e-5` up to `1e16`, and with an exponent outside of that. -/
def text (x : Binary64) : String :=
  let sign := if x.isNegative then ['-'] else []
  if x.magnitude = 0 then String.ofList (sign ++ ['0', '.', '0'])
  else
    let decimal := x.shortest
    let digits := digitsOf decimal.digits
    let top := decimal.exponent + digits.length - 1
    -- a last digit of zero comes of a neighbour that rounded up; it is not written
    let digits := (digits.reverse.dropWhile (· == '0')).reverse
    String.ofList (sign ++
      (if -5 ≤ top ∧ top < 16 then placePoint digits (top + 1) else withExponent digits top))

end Binary64

end DataGrid
