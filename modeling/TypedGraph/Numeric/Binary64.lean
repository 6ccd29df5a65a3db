import TypedGraph.Text.Decimal

/-!
# Finite Binary64 Numbers

The finite numbers of the binary64 format as exact data: a sign and the rank of the magnitude among
all finite magnitudes in increasing order. Every magnitude is a whole number of units, a unit being
the least positive magnitude `2 ^ (-1074)`; decimals are rounded to the nearest number, ties to
even.
-/

namespace TypedGraph

/-- The number of finite magnitudes. -/
def Binary64.rankBound : Nat := 2047 <<< 52

/-- A finite binary64 number. -/
structure Binary64 where
  /-- The sign is minus, also of zero. -/
  negative : Bool
  /-- The position among the finite magnitudes in increasing order, from zero. -/
  rank : Nat
  /-- The magnitude is finite. -/
  rank_lt : rank < Binary64.rankBound
deriving DecidableEq

namespace Binary64

/-- The power of two by which neighbours of this magnitude differ, in units. -/
def scale (x : Binary64) : Nat := (x.rank >>> 52) - 1

/-- The magnitude as a multiple of `2 ^ scale` units. -/
def significand (x : Binary64) : Nat := x.rank - (x.scale <<< 52)

/-- The magnitude in units. -/
def units (x : Binary64) : Nat := x.significand <<< x.scale

/-- The zero of a sign. -/
def zero (negative : Bool) : Binary64 := ⟨negative, 0, by decide⟩

/-- The magnitude is zero. -/
def isZero (x : Binary64) : Bool := x.rank == 0

/-- A quotient rounded to the nearest whole number, a tie to the even one. -/
def roundHalfEven (num den : Nat) : Nat :=
  let q := num / den
  let r := num % den
  if 2 * r < den then q
  else if den < 2 * r then q + 1
  else q + q % 2

/-- The rank of the magnitude nearest to `num / den`; it is out of range for a quotient too
large. -/
def nearestRank (num den : Nat) : Nat :=
  let inUnits := num <<< 1074
  let shift := (inUnits / den).log2 - 52
  -- the leading bit of a significand of 53 bits counts as one more in the exponent part
  (shift <<< 52) + roundHalfEven inUnits (den <<< shift)

/-- The number of a sign and a rank, if the rank is in range. -/
def ofRank? (negative : Bool) (rank : Nat) : Option Binary64 :=
  if h : rank < rankBound then some ⟨negative, rank, h⟩ else none

/-- The number nearest to `± coefficient * 10 ^ exponent`. There is none beyond the finite range,
and what is below half a unit becomes a zero; far outside the range the exponent decides this. -/
def ofDecimal? (negative : Bool) (coefficient : Nat) (exponent : Int) : Option Binary64 :=
  let magnitude := (Decimal.digits coefficient).length + exponent
  if coefficient = 0 ∨ magnitude < -330 then some (zero negative)
  else if 330 < magnitude then none
  else
    match exponent with
    | .ofNat e => ofRank? negative (nearestRank (coefficient * Decimal.power e) 1)
    | .negSucc e => ofRank? negative (nearestRank coefficient (Decimal.power (e + 1)))

/-- The number nearest to a whole number, if it is in range. -/
def ofInt? (i : Int) : Option Binary64 :=
  ofRank? (decide (i < 0)) (nearestRank i.natAbs 1)

end Binary64

end TypedGraph
