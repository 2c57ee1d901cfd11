import CodeRows.Listing
import CodeRows.Settings

/-! # What a host paints

A display holds, row by row, the texts of the cells with their classes, and the width of the
line-number column. -/

set_option autoImplicit false

namespace CodeRows

namespace Display

structure Cell where
  text : String
  classes : List String
deriving DecidableEq

structure Line where
  index : Nat
  number : Option Int
  isSelected : Bool
  cells : List Cell
deriving DecidableEq

end Display

structure Display where
  lines : List Display.Line
  selected : Nat
  gutterWidth : Nat
deriving DecidableEq

namespace Display

def Cell.ofToken (token : Token) : Cell := ⟨token.text, token.tags.classNames⟩

def Line.ofRow (index : Nat) (row : Row) : Line :=
  ⟨index, row.number, row.isSelected, row.tokens.map Cell.ofToken⟩

/-- The widest line number by some way to measure texts, zero if there is none. -/
def fittedWidthBy (measure : String → Nat) (listing : Listing) : Nat :=
  (listing.rows.filterMap fun row =>
    (row.token? Position.numberColumn).map fun slot => measure slot.text).foldl max 0

/-- The width of the line-number column in characters: as set, rounded, or else fitted. -/
def gutterWidthOf (listing : Listing) (settings : Settings) : Nat :=
  if settings.gutterWidth.isAtLeastZero then settings.gutterWidth.roundToWord
  else fittedWidthBy String.length listing

def ofListing (listing : Listing) (settings : Settings) : Display where
  lines := listing.rows.mapIdx Line.ofRow
  selected := listing.selected
  gutterWidth := gutterWidthOf listing settings

end Display

end CodeRows
