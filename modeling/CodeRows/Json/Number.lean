import CodeRows.Json.Scan

/-! # Number values

A number spelt without point and exponent that fits 64 bits is an integer; minus zero and what
lies below the least 64-bit integer are real.  The digits of a real number are gathered into a
64-bit significand as far as they fit; the significand is rounded to a floating-point number,
and the power of ten is multiplied in or divided out with one more rounding.  Hence the result
need not be the nearest number to what is spelt. -/

set_option autoImplicit false

namespace CodeRows.Json

inductive Number where
  | integer (value : Int)
  | real (value : Binary64)
deriving DecidableEq

namespace Number

def found : Number → Found
  | integer value => .integer value
  | real value => .real value

def toBinary : Number → Binary64
  | integer value => Binary64.ofInt value
  | real value => value

end Number

/-- Append digits to a number as long as it stays within the limit; the digits from the first
that does not fit are left. -/
def gather (limit : Nat) : Nat → List Char → Nat × List Char
  | n, [] => (n, [])
  | n, c :: digits =>
    if n * 10 + Numeric.digitValue c ≤ limit then gather limit (n * 10 + Numeric.digitValue c) digits
    else (n, c :: digits)

def significandLimit : Nat := Binary64.maxWord

/-- The largest exponent, of 31 bits. -/
def exponentLimit : Nat := 0x7fffffff

structure Scaled where
  significand : Nat
  exponent : Int

/-- The digits of a spelling as a significand: digits before the point that do not fit raise the
exponent, digits after it that fit lower it. -/
def Spelling.scaled (spelling : Spelling) : Scaled :=
  let (whole, dropped) := gather significandLimit 0 spelling.whole
  let fraction := spelling.fraction.getD []
  let (significand, unused) := gather significandLimit whole fraction
  ⟨significand, dropped.length - ((fraction.length - unused.length : Nat) : Int)⟩

def powerOfTen (n : Nat) : Binary64 := Binary64.nearest (Nat.pow 10 n) 1

/-- The magnitude of a scaled significand, if it is finite.  A divisor beyond the largest power
of ten is taken in two steps; beyond two of them nothing of the significand is left. -/
def Scaled.magnitude? (scaled : Scaled) : Option Binary64 :=
  let significand := Binary64.nearest scaled.significand 1
  let power := scaled.exponent.natAbs
  if scaled.significand = 0 then some significand
  else if 0 ≤ scaled.exponent then
    if power ≤ 308 then
      let product := significand.mulAbs (powerOfTen power)
      if product.isFinite then some product else none
    else none
  else if power ≤ 308 then some (significand.divAbs (powerOfTen power))
  else if power ≤ 616 then
    some ((significand.divAbs (powerOfTen 308)).divAbs (powerOfTen (power - 308)))
  else some (Binary64.ofWord 0)

def realNumber (negative : Bool) (scaled : Scaled) (rest : List Char) : Except Fault Number :=
  match scaled.magnitude? with
  | some magnitude => .ok (.real (magnitude.withSign negative))
  | none => .error (faultAt .numberTooLarge rest)

/-- The integer with a magnitude that fits, or else a real number. -/
def plainNumber (negative : Bool) (magnitude : Nat) : Number :=
  if !negative then .integer magnitude
  else if magnitude = 0 ∨ 0x8000000000000000 < magnitude then
    .real ((Binary64.nearest magnitude 1).withSign true)
  else .integer (-magnitude)

def Spelling.value (spelling : Spelling) (rest : List Char) : Except Fault Number :=
  let scaled := spelling.scaled
  match spelling.exponent with
  | some (positive, digits) =>
    match gather exponentLimit 0 digits with
    | (exponent, []) =>
      let shift : Int := if positive then exponent else -exponent
      realNumber spelling.negative { scaled with exponent := scaled.exponent + shift } rest
    | (_, _ :: later) =>
      if scaled.significand ≠ 0 ∧ positive then
        .error (.placed .numberTooLarge (byteSize rest + later.length))
      else .ok (.real ((Binary64.ofWord 0).withSign spelling.negative))
  | none =>
    if spelling.fraction.isNone ∧ scaled.exponent = 0 then
      .ok (plainNumber spelling.negative scaled.significand)
    else realNumber spelling.negative scaled rest

def readNumber (s : List Char) : Except Fault (Number × List Char) := do
  let (spelling, rest) ← readSpelling .endInValue s
  let number ← spelling.value rest
  .ok (number, rest)

theorem length_readNumber_lt {s rest : List Char} {value : Number}
    (done : readNumber s = .ok (value, rest)) : rest.length < s.length := by
  obtain ⟨⟨spelling, after⟩, spelt, done⟩ := bind_eq_ok done
  obtain ⟨number, _, done⟩ := bind_eq_ok done
  cases done
  exact length_readSpelling_lt spelt

end CodeRows.Json
