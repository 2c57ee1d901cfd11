import CodeRows.OrderedSet

/-! # Positions

A token is named by its row and its column.  Columns count the two gutter slots, so the first
content token stands in column 2.  Positions are ordered row by row. -/

set_option autoImplicit false

namespace CodeRows

open Std

structure Position where
  row : Nat
  column : Nat
deriving DecidableEq, Repr

namespace Position

def numberColumn : Nat := 0

def arrowColumn : Nat := 1

def contentColumn : Nat := 2

/-- The position of the `n`-th content token of a row. -/
def content (row n : Nat) : Position := ⟨row, contentColumn + n⟩

def right (p : Position) : Position := { p with column := p.column + 1 }

/-- Row-major order. -/
instance : Ord Position := ⟨compareLex (compareOn row) (compareOn column)⟩

instance : TransOrd Position :=
  inferInstanceAs (TransCmp (compareLex (compareOn row) (compareOn column)))

instance : LawfulEqOrd Position where
  eq_of_compare {a b} same := by
    obtain ⟨sameRow, sameColumn⟩ := compareLex_eq_eq.1 same
    cases a
    cases b
    simp_all [compareOn]

end Position

/-- A set of tokens that light up together, in row-major order. -/
abbrev Highlight := OrderedSet Position

namespace Highlight

def dropRepeats : List Nat → List Nat
  | [] => []
  | [n] => [n]
  | m :: n :: rest => if m = n then dropRepeats (n :: rest) else m :: dropRepeats (n :: rest)

def rows (tokens : Highlight) : List Nat :=
  dropRepeats (tokens.elems.map Position.row)

end Highlight

end CodeRows
