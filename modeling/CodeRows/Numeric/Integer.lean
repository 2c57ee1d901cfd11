/-! # Integers

The decimal text of a natural number has no leading zeros; a negative integer has a minus sign
in front.  Integers of 64 bits are added so that the sum stays in their range. -/

set_option autoImplicit false

namespace CodeRows.Numeric

/-! ## Decimal texts -/

def natChars (n : Nat) : List Char := Nat.toDigits 10 n

def intChars (i : Int) : List Char :=
  if i < 0 then '-' :: natChars i.natAbs else natChars i.natAbs

def natText (n : Nat) : String := String.ofList (natChars n)

def intText (i : Int) : String := String.ofList (intChars i)

def digitValue (c : Char) : Nat := c.toNat - '0'.toNat

theorem intText_eq_toString (number : Int) : intText number = toString number := by
  rw [intText, intChars]
  cases number with
  | ofNat n =>
    have nonneg : ¬Int.ofNat n < 0 := Int.not_lt.2 (Int.natCast_nonneg n)
    rw [if_neg nonneg]
    rfl
  | negSucc n =>
    rw [if_pos (Int.negSucc_lt_zero n), String.ofList_cons]
    rfl

/-! ## Saturating addition -/

/-- The sum, or the end of the range that it lies beyond. -/
def saturatingAdd (a b : Int64) : Int64 := Int64.ofIntClamp (a.toInt + b.toInt)

theorem toInt_saturatingAdd (a b : Int64) :
    (saturatingAdd a b).toInt =
      max Int64.minValue.toInt (min (a.toInt + b.toInt) Int64.maxValue.toInt) := by
  have order : Int64.minValue.toInt ≤ Int64.maxValue.toInt := by decide
  rw [saturatingAdd, Int64.ofIntClamp]
  split
  · rename_i above
    split
    · rename_i below
      rw [Int64.toInt_ofIntLE]
      omega
    · omega
  · omega

theorem toInt_saturatingAdd_of_nonneg (a : Int64) {b : Int64} (nonneg : 0 ≤ b.toInt) :
    (saturatingAdd a b).toInt = min (a.toInt + b.toInt) Int64.maxValue.toInt := by
  have bound : Int64.minValue.toInt ≤ a.toInt := Int64.minValue_le_toInt a
  have order : Int64.minValue.toInt ≤ Int64.maxValue.toInt := by decide
  rw [toInt_saturatingAdd]
  omega

end CodeRows.Numeric
