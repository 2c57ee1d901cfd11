import CodeRows.Numeric.Shortest

/-! # Number layouts

A layout says how the shortest decimal of a floating-point number is written: which exponents
are written positionally, how an exponent is marked, which way ties go, and what stands for
infinities and for words that are not numbers. -/

set_option autoImplicit false

namespace CodeRows.Numeric

structure Layout where
  /-- The least exponent of the first digit that is written positionally. -/
  lowest : Int
  /-- The greatest exponent of the first digit that is written positionally. -/
  highest : Int
  plus : Bool
  tie : Tie
  nan : String
  infinity : String
  negativeInfinity : String

namespace Layout

/-- Digits with a point and at least one digit on each side of it. -/
def positional (digits : List Char) (exponent : Int) : List Char :=
  let point : Int := digits.length + exponent
  if 0 ≤ exponent then digits ++ List.replicate exponent.toNat '0' ++ ['.', '0']
  else if 0 < point then digits.take point.toNat ++ '.' :: digits.drop point.toNat
  else '0' :: '.' :: List.replicate (-point).toNat '0' ++ digits

def scientific (plus : Bool) (digits : List Char) (exponent : Int) : List Char :=
  let point : Int := digits.length + exponent
  let others := digits.drop 1
  digits.take 1 ++ (if others.isEmpty then [] else '.' :: others) ++
    'e' :: (if plus && 0 < point then ['+'] else []) ++ intChars (point - 1)

def decimal (layout : Layout) (d : Decimal) : List Char :=
  let digits := natChars d.digits
  let top : Int := digits.length + d.exponent - 1
  if layout.lowest ≤ top ∧ top ≤ layout.highest then positional digits d.exponent
  else scientific layout.plus digits d.exponent

/-- The text of a number; zero keeps its sign. -/
def chars (layout : Layout) (x : Binary64) : List Char :=
  if x.isNaN then layout.nan.toList
  else if !x.isFinite then
    if x.isNegative then layout.negativeInfinity.toList else layout.infinity.toList
  else
    let sign := if x.isNegative then ['-'] else []
    if x.isZero then sign ++ ['0', '.', '0']
    else sign ++ layout.decimal (shortest layout.tie x)

def text (layout : Layout) (x : Binary64) : String := String.ofList (layout.chars x)

end Layout

/-- Numbers in diagnostics: positional from 0.0001 up to sixteen places. -/
def diagnostic : Layout :=
  { lowest := -4
    highest := 15
    plus := false
    tie := .up
    nan := "NaN"
    infinity := "inf"
    negativeInfinity := "-inf" }

end CodeRows.Numeric
