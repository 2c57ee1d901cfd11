/-! # Binary floating-point numbers

A 64-bit word read as a sign, an exponent field of 11 bits and a fraction of 52 bits.  A finite
number is a significand times a power of two, kept here as a quotient of natural numbers, so
that every operation is exact arithmetic followed by one rounding (`Binary64.nearest`).  The
word itself is kept, since the many words that are not numbers differ in their bits. -/

set_option autoImplicit false

namespace CodeRows.Numeric

def roundHalfEven (num den : Nat) : Nat :=
  let floor := num / den
  let twice := 2 * (num % den)
  if twice < den then floor
  else if den < twice then floor + 1
  else floor + floor % 2

def roundHalfUp (num den : Nat) : Nat := (2 * num + den) / (2 * den)

end CodeRows.Numeric

namespace CodeRows

/-- A floating-point number in the 64-bit binary interchange format. -/
structure Binary64 where
  bits : UInt64
deriving DecidableEq

namespace Binary64

open Numeric

def word (x : Binary64) : Nat := x.bits.toNat

def ofWord (n : Nat) : Binary64 := ⟨n.toUInt64⟩

/-- The place value of the sign bit: two to the 63rd. -/
def signPlace : Nat := 0x8000000000000000

/-- The place value of the lowest exponent bit: two to the 52nd. -/
def exponentPlace : Nat := 0x10000000000000

def maxWord : Nat := 0xffffffffffffffff

/-- The exponent field of infinities and of words that are not numbers. -/
def maxField : Nat := 2047

def isNegative (x : Binary64) : Bool := signPlace ≤ x.word

def exponentField (x : Binary64) : Nat := x.word / exponentPlace % 2048

def fraction (x : Binary64) : Nat := x.word % exponentPlace

def isFinite (x : Binary64) : Bool := x.exponentField ≠ maxField

def isNaN (x : Binary64) : Bool := !x.isFinite && x.fraction ≠ 0

def isZero (x : Binary64) : Bool := x.word % signPlace = 0

/-- The significand: the fraction, with a leading bit unless the exponent field is zero. -/
def significand (x : Binary64) : Nat :=
  if x.exponentField = 0 then x.fraction else exponentPlace + x.fraction

/-- A unit in the last place is two to the power of `scale - 1074`. -/
def scale (x : Binary64) : Nat := x.exponentField - 1

def unitNum (x : Binary64) : Nat := Nat.pow 2 (x.scale - 1074)

def den (x : Binary64) : Nat := Nat.pow 2 (1074 - x.scale)

/-- The magnitude of a finite number is `num / den`. -/
def num (x : Binary64) : Nat := x.significand * x.unitNum

/-- The number nearest to `num / den`, a tie to the even significand, infinity when the quotient
is too large.  Counting the words of the positive numbers upward from zero goes through all of
them in order, so a significand that rounds up to the next power of two needs no attention. -/
def nearest (num den : Nat) : Binary64 :=
  if num = 0 then ofWord 0
  else
    let guess := num.log2 + 1022 - den.log2
    let steps (scale : Nat) : Nat × Nat :=
      (num * Nat.pow 2 (1074 - scale), den * Nat.pow 2 (scale - 1074))
    let scale := if (steps guess).1 / (steps guess).2 < exponentPlace then guess - 1 else guess
    let word := scale * exponentPlace + roundHalfEven (steps scale).1 (steps scale).2
    ofWord (min word (maxField * exponentPlace))

def withSign (negative : Bool) (x : Binary64) : Binary64 :=
  ofWord (x.word % signPlace + if negative then signPlace else 0)

def ofInt (i : Int) : Binary64 := withSign (decide (i < 0)) (nearest i.natAbs 1)

def mulAbs (x y : Binary64) : Binary64 := nearest (x.num * y.num) (x.den * y.den)

def divAbs (x y : Binary64) : Binary64 := nearest (x.num * y.den) (x.den * y.num)

/-- Equality of numbers: the two zeros are equal, and a word that is not a number equals
nothing. -/
def equals (x y : Binary64) : Bool :=
  !x.isNaN && !y.isNaN && (x == y || (x.isZero && y.isZero))

/-- Zero of either sign, a positive number or positive infinity. -/
def isAtLeastZero (x : Binary64) : Bool :=
  !x.isNaN && (!x.isNegative || x.isZero)

/-- The magnitude as a 64-bit count: rounded with a half upward, and cut off at the largest. -/
def roundToWord (x : Binary64) : Nat :=
  if x.isFinite then min (roundHalfUp x.num x.den) maxWord else maxWord

def minusOne : Binary64 := ⟨0xbff0000000000000⟩

example : ofInt (-1) = minusOne := by decide +kernel

example : nearest 1 10 = ⟨0x3fb999999999999a⟩ := by decide +kernel

example : nearest (10 ^ 309) 1 = ⟨0x7ff0000000000000⟩ := by decide +kernel

end Binary64

end CodeRows
