import CodeRows.Numeric.Binary64
import CodeRows.Numeric.Integer

/-! # Shortest decimals

Among the decimals that round to a given floating-point number, the one with the fewest digits
is chosen, and among those the nearest to the number.  The decimals that round to a number form
an interval around it, whose ends belong to it exactly when the significand is even; at a power
of two the gap below is half the gap above. -/

set_option autoImplicit false

namespace CodeRows.Numeric

/-- The number `digits` times ten to the power of `exponent`. -/
structure Decimal where
  digits : Nat
  exponent : Int
deriving DecidableEq, Repr

inductive Tie where
  | toEven
  | up
deriving DecidableEq, Repr

/-- A number with the ends of the interval that rounds to it, over one denominator. -/
structure Bracket where
  low : Nat
  value : Nat
  high : Nat
  den : Nat
  /-- Whether the ends belong to the interval. -/
  closed : Bool

namespace Bracket

def ofBinary (x : Binary64) : Bracket :=
  let value := 4 * x.num
  let below := if x.fraction = 0 ∧ 1 < x.exponentField then x.unitNum else 2 * x.unitNum
  { low := value - below
    value := value
    high := value + 2 * x.unitNum
    den := 4 * x.den
    closed := x.significand % 2 = 0 }

def within (b : Bracket) (a c : Nat) : Bool :=
  a < c || (b.closed && a == c)

def nearestOn (b : Bracket) (tie : Tie) (exponent : Int) : Nat :=
  let num := b.value * Nat.pow 10 (-exponent).toNat
  let den := b.den * Nat.pow 10 exponent.toNat
  match tie with
  | .toEven => roundHalfEven num den
  | .up => roundHalfUp num den

/-- The neighbour of the number on the grid of multiples of ten to the `exponent` that lies in
the interval, the nearer one if both do. -/
def hit? (b : Bracket) (tie : Tie) (exponent : Int) : Option Nat :=
  let finer := Nat.pow 10 (-exponent).toNat
  let den := b.den * Nat.pow 10 exponent.toNat
  let floor := b.value * finer / den
  let lowerHit := b.within (b.low * finer) (floor * den)
  let upperHit := b.within ((floor + 1) * den) (b.high * finer)
  match lowerHit, upperHit with
  | true, true => some (b.nearestOn tie exponent)
  | true, false => some floor
  | false, true => some (floor + 1)
  | false, false => none

/-- Go from grid to finer grid until one has a neighbour in the interval; the last grid
allowed is taken untested. -/
def search (b : Bracket) (tie : Tie) : Nat → Int → Decimal
  | 0, exponent => ⟨b.nearestOn tie exponent, exponent⟩
  | grids + 1, exponent =>
    match b.hit? tie exponent with
    | some digits => ⟨digits, exponent⟩
    | none => search b tie grids (exponent - 1)

end Bracket

def topExponent (num den : Nat) : Int :=
  if den ≤ num then (natChars (num / den)).length - 1
  else -(natChars ((den - 1) / num)).length

/-- The shortest decimal of a positive number.  Seventeen digits always suffice.  A carry into
a new place leaves one zero at the end, which is taken off. -/
def shortest (tie : Tie) (x : Binary64) : Decimal :=
  let found := (Bracket.ofBinary x).search tie 16 (topExponent x.num x.den)
  if found.digits % 10 = 0 then ⟨found.digits / 10, found.exponent + 1⟩ else found

example : shortest .toEven (Binary64.nearest 1 10) = ⟨1, -1⟩ := by decide +kernel

example : shortest .toEven ⟨1⟩ = ⟨5, -324⟩ := by decide +kernel

example : shortest .toEven (Binary64.nearest (10 ^ 23) 1) = ⟨1, 23⟩ := by decide +kernel

end CodeRows.Numeric
