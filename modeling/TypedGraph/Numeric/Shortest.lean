import TypedGraph.Numeric.Binary64

/-!
# Shortest Decimals

The decimal with the fewest digits that reads back as a given binary64 number: on the coarsest grid
of powers of ten that has a point in the interval of reals rounding to the number, the point nearest
to the number itself. All comparisons are exact, in quarters of a unit.
-/

namespace TypedGraph

/-- The decimal `coefficient * 10 ^ exponent`. -/
structure ShortDecimal where
  /-- The digits, as a number. -/
  coefficient : Nat
  /-- The power of ten of the last digit. -/
  exponent : Int
deriving DecidableEq

namespace Binary64

/-- The interval of magnitudes that round to a number, in quarters of a unit. -/
structure RoundingInterval where
  /-- The lower end. -/
  low : Nat
  /-- The magnitude itself. -/
  middle : Nat
  /-- The upper end. -/
  high : Nat
  /-- The ends belong to the interval. -/
  closed : Bool

/-- The magnitudes that round to this one. The gap below a power of two is half the gap above it,
and the ends round here when the significand is even. -/
def roundingInterval (x : Binary64) : RoundingInterval :=
  let middle := 4 * x.units
  let below := if x.significand = 1 <<< 52 ∧ 0 < x.scale then 1 else 2
  { low := middle - (below <<< x.scale)
    middle := middle
    high := middle + (2 <<< x.scale)
    closed := x.significand % 2 == 0 }

/-- The quotient `num / den` lies in the interval. -/
def RoundingInterval.holds (i : RoundingInterval) (num den : Nat) : Bool :=
  if i.closed then decide (i.low * den ≤ num) && decide (num ≤ i.high * den)
  else decide (i.low * den < num) && decide (num < i.high * den)

/-- The step `10 ^ exponent` of a decimal grid as a quotient, in quarters of a unit. -/
def gridStep (exponent : Int) : Nat × Nat :=
  match exponent with
  | .ofNat e => (Decimal.power e <<< 1076, 1)
  | .negSucc e => (1 <<< 1076, Decimal.power (e + 1))

/-- The point of a decimal grid that lies in the interval and is nearest to its middle; of two
equally near ones the even one. -/
def RoundingInterval.nearestOn? (i : RoundingInterval) (exponent : Int) : Option ShortDecimal :=
  let (num, den) := gridStep exponent
  -- only the points next to the middle on both sides can be the nearest
  let below := i.middle * den / num
  let lowFits := i.holds (below * num) den
  let highFits := i.holds ((below + 1) * num) den
  if lowFits && highFits then some ⟨roundHalfEven (i.middle * den) num, exponent⟩
  else if lowFits then some ⟨below, exponent⟩
  else if highFits then some ⟨below + 1, exponent⟩
  else none

/-- The exponents of the decimal grids that can matter, the coarsest first. -/
def gridExponents : List Int :=
  -- from above the greatest magnitude to the last digit of the least one
  (List.range 634).map fun (i : Nat) => 309 - (i : Int)

/-- The decimal of fewest digits that reads back as this magnitude. -/
def shortest (x : Binary64) : ShortDecimal :=
  (gridExponents.findSome? x.roundingInterval.nearestOn?).getD ⟨0, 0⟩

end Binary64

/-- A way of writing decimals that always shows a mark. -/
structure DecimalStyle where
  /-- The least exponent of a first digit that is written in place. -/
  leastPlain : Int
  /-- The greatest exponent of a first digit that is written in place. -/
  greatestPlain : Int

namespace DecimalStyle

/-- Digits written in place, with at least one digit on each side of the point. -/
def plain (digits : List Char) (exponent : Int) : List Char :=
  match exponent with
  | .ofNat e => digits ++ List.replicate e '0' ++ ['.', '0']
  | .negSucc e =>
    let places := e + 1
    if places < digits.length then
      digits.take (digits.length - places) ++ '.' :: digits.drop (digits.length - places)
    else '0' :: '.' :: (List.replicate (places - digits.length) '0' ++ digits)

/-- Digits written with the exponent of the first one; the exponent always has a sign. -/
def scientific (digits : List Char) (first : Int) : List Char :=
  let mantissa :=
    match digits with
    | d :: e :: rest => d :: '.' :: e :: rest
    | ds => ds
  mantissa ++ 'e' :: (if first < 0 then '-' else '+') :: Decimal.digits first.natAbs

/-- The text of a nonzero decimal. -/
def write (style : DecimalStyle) (d : ShortDecimal) : List Char :=
  let digits := Decimal.digits d.coefficient
  -- the exponent of the first digit
  let first := d.exponent + digits.length - 1
  if style.leastPlain ≤ first ∧ first ≤ style.greatestPlain then plain digits d.exponent
  else scientific digits first

end DecimalStyle

end TypedGraph
